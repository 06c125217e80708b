namespace ScanParse

/-- A value found by a grammar over items `τ`. -/
inductive Value (τ : Type) where
  | unit
  | int (value : Int)
  | text (content : String)
  | item (content : τ)
  | list (elements : List (Value τ))
  | pair (first second : Value τ)

namespace Value

variable {τ : Type}

mutual

/-- Writes the text of a value after what is written. -/
def writeAfter [ToString τ] (written : String) : Value τ → String
  | unit => written
  | int value => written ++ toString value
  | text content => written ++ content
  | .item content => written ++ toString content
  | list elements => writeAllAfter written elements
  | pair first second => writeAfter (writeAfter written first) second

/-- Writes the texts of several values after what is written. -/
def writeAllAfter [ToString τ] (written : String) : List (Value τ) → String
  | [] => written
  | element :: elements => writeAllAfter (writeAfter written element) elements

end

/-- The text of a value: that of its parts, one after the other, without brackets. -/
def toText [ToString τ] (value : Value τ) : String :=
  writeAfter "" value

/-- The number of elements of a list; of any other value, the number of characters of its text. -/
def length [ToString τ] : Value τ → Value τ
  | list elements => int elements.length
  | value => int value.toText.length

/-- The text of a value as a value. -/
def shown [ToString τ] (value : Value τ) : Value τ :=
  text value.toText

/-- The text of a value in parentheses. -/
def parenthesized [ToString τ] (value : Value τ) : Value τ :=
  text ("(" ++ value.toText ++ ")")

def wrapped (value : Value τ) : Value τ :=
  list [value]

/-- The first part of a pair; any other value is left alone. -/
def fst : Value τ → Value τ
  | pair first _ => first
  | value => value

/-- The second part of a pair; any other value is left alone. -/
def snd : Value τ → Value τ
  | pair _ second => second
  | value => value

/-- A pair with its parts exchanged; any other value is left alone. -/
def swapped : Value τ → Value τ
  | pair first second => pair second first
  | value => value

def joined [ToString τ] (first second : Value τ) : Value τ :=
  text (writeAfter first.toText second)

section Text

variable [ToString τ]

mutual

theorem writeAfter_eq (written : String) :
    (value : Value τ) → value.writeAfter written = written ++ value.toText
  | unit => by simp [toText, writeAfter]
  | int _ | text _ | .item _ => by simp [toText, writeAfter]
  | list elements => by
      rw [toText, writeAfter, writeAfter, writeAllAfter_eq, writeAllAfter_eq "",
        String.empty_append]
  | pair first second => by
      rw [toText, writeAfter, writeAfter, writeAfter_eq _ second, writeAfter_eq _ second,
        writeAfter_eq written first, writeAfter_eq "" first, String.empty_append,
        String.append_assoc]

theorem writeAllAfter_eq (written : String) :
    (elements : List (Value τ)) →
      writeAllAfter written elements = written ++ String.join (elements.map toText)
  | [] => by simp [writeAllAfter]
  | element :: elements => by
      rw [writeAllAfter, writeAllAfter_eq, writeAfter_eq, String.append_assoc]
      simp

end

@[simp] theorem toText_list (elements : List (Value τ)) :
    (list elements).toText = String.join (elements.map toText) := by
  rw [toText, writeAfter, writeAllAfter_eq, String.empty_append]

@[simp] theorem toText_pair (first second : Value τ) :
    (pair first second).toText = first.toText ++ second.toText := by
  rw [toText, writeAfter, writeAfter_eq _ second, ← toText]

@[simp] theorem toText_text (content : String) : (text content : Value τ).toText = content := by
  simp [toText, writeAfter]

@[simp] theorem toText_shown (value : Value τ) : value.shown.toText = value.toText :=
  toText_text value.toText

@[simp] theorem toText_parenthesized (value : Value τ) :
    value.parenthesized.toText = "(" ++ value.toText ++ ")" :=
  toText_text _

@[simp] theorem toText_wrapped (value : Value τ) : value.wrapped.toText = value.toText := by
  simp [wrapped]

@[simp] theorem toText_joined (first second : Value τ) :
    (first.joined second).toText = first.toText ++ second.toText := by
  rw [joined, toText_text, writeAfter_eq]

end Text

@[simp] theorem swapped_swapped (value : Value τ) : value.swapped.swapped = value := by
  cases value <;> rfl

end Value

end ScanParse
