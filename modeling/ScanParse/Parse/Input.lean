/-!
The sequence of items that a parser reads. An input carries its size, so that a repetition can
compare two remainders without walking them.
-/

namespace ScanParse

/-- A finite sequence of items together with its size. -/
structure Input (τ : Type) where
  items : List τ
  size : Nat
  size_eq : size = items.length

namespace Input

variable {τ : Type}

/-- The input that holds the given items. -/
def ofList (items : List τ) : Input τ :=
  ⟨items, items.length, rfl⟩

/-- The view of an input is its list of items. -/
def toList (input : Input τ) : List τ :=
  input.items

def isEmpty (input : Input τ) : Bool :=
  input.size == 0

/-- The first item and what follows it. -/
def uncons? (input : Input τ) : Option (τ × Input τ) :=
  match h : input.items with
  | [] => none
  | item :: rest => some (item, ⟨rest, input.size - 1, by simp [input.size_eq, h]⟩)

/-- The input without its first `count` items. -/
def drop (input : Input τ) (count : Nat) : Input τ :=
  ⟨input.items.drop count, input.size - count, by simp [input.size_eq]⟩

@[ext] theorem ext {a b : Input τ} (h : a.toList = b.toList) : a = b := by
  obtain ⟨items, size, hsize⟩ := a
  obtain ⟨items', size', hsize'⟩ := b
  simp only [toList] at h
  subst h hsize hsize'
  rfl

@[simp] theorem toList_ofList (items : List τ) : (ofList items).toList = items := rfl

@[simp] theorem ofList_toList (input : Input τ) : ofList input.toList = input :=
  Input.ext rfl

theorem size_eq_length (input : Input τ) : input.size = input.toList.length :=
  input.size_eq

@[simp] theorem size_ofList (items : List τ) : (ofList items).size = items.length := rfl

@[simp] theorem toList_drop (input : Input τ) (count : Nat) :
    (input.drop count).toList = input.toList.drop count := rfl

theorem isEmpty_iff {input : Input τ} : input.isEmpty = true ↔ input.toList = [] := by
  simp [isEmpty, size_eq_length]

@[simp] theorem uncons?_nil : (ofList ([] : List τ)).uncons? = none := rfl

@[simp] theorem uncons?_cons (item : τ) (rest : List τ) :
    (ofList (item :: rest)).uncons? = some (item, ofList rest) := rfl

end Input

end ScanParse
