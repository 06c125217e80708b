import Mathlib.Data.List.TakeWhile
import ScanParse.Scan.Lexeme

namespace ScanParse.Text

/-- The text does not begin with a character of the class. -/
def Stops (p : Char → Bool) (cs : List Char) : Prop :=
  ∀ c ∈ cs.head?, p c = false

@[simp] theorem stops_nil (p : Char → Bool) : Stops p [] := by
  simp [Stops]

@[simp] theorem stops_cons (p : Char → Bool) (c : Char) (cs : List Char) :
    Stops p (c :: cs) ↔ p c = false := by
  simp [Stops]

theorem stops_dropWhile (p : Char → Bool) (cs : List Char) :
    Stops p (cs.dropWhile p) := by
  induction cs with
  | nil => simp
  | cons c cs ih =>
      rw [List.dropWhile_cons]
      split
      · exact ih
      · rename_i hc
        simpa using hc

theorem takeWhile_eq_nil_of_stops {p : Char → Bool} {cs : List Char}
    (h : Stops p cs) : cs.takeWhile p = [] := by
  cases cs with
  | nil => rfl
  | cons c cs =>
      rw [stops_cons] at h
      simp [h]

theorem takeWhile_append_of_stops {p : Char → Bool} {run rest : List Char}
    (hrun : ∀ c ∈ run, p c = true) (hrest : Stops p rest) :
    (run ++ rest).takeWhile p = run := by
  rw [List.takeWhile_append_of_pos hrun, takeWhile_eq_nil_of_stops hrest,
    List.append_nil]

theorem ne_of_class {p : Char → Bool} {c d : Char} (hc : p c = true)
    (hd : p d = false) : c ≠ d := by
  rintro rfl
  simp [hc] at hd

theorem not_mem_of_class {p : Char → Bool} {c : Char} {listed : List Char}
    (hc : p c = true) (hlisted : listed.any p = false) : c ∉ listed := by
  intro hmem
  exact List.any_eq_false.mp hlisted c hmem hc

theorem isAlphabetic_of_isDigit {c : Char} (h : c.isDigit = true) :
    isAlphabetic c = false := by
  have hle : c.toNat ≤ 57 := (Char.isDigit_iff_toNat.mp h).2
  have hupper : ¬ 'A'.val ≤ c.val := by
    intro hletter
    have hletter : 65 ≤ c.toNat := UInt32.le_iff_toNat_le.mp hletter
    omega
  have hlower : ¬ 'a'.val ≤ c.val := by
    intro hletter
    have hletter : 97 ≤ c.toNat := UInt32.le_iff_toNat_le.mp hletter
    omega
  rw [isAlphabetic_of_ascii (by omega)]
  change (decide ('A'.val ≤ c.val ∧ c.val ≤ 'Z'.val) ||
    (decide ('a'.val ≤ c.val) && decide (c.val ≤ 'z'.val))) = false
  rw [decide_eq_false fun hletter => hupper hletter.1, decide_eq_false hlower]
  rfl

end ScanParse.Text

namespace ScanParse.Lexeme

open ScanParse.Text

/-- The characters that are tokens by themselves. -/
def separators : List Char :=
  [' ', '\t', '\n', '(', ')', '[', ']', '\x7b', '\x7d']

/-- The characters with which an identifier goes on. -/
def continuesIdentifier (options : ScanOptions) (c : Char) : Bool :=
  isAlphabetic c || (options.identifierDigits && c.isDigit)

@[simp] theorem continuesIdentifier_standard (c : Char) :
    continuesIdentifier .standard c = isAlphabetic c := by
  simp [continuesIdentifier, ScanOptions.standard]

theorem not_mem_separators_of_isAlphabetic {c : Char} (h : isAlphabetic c = true) :
    c ∉ separators :=
  not_mem_of_class h (by decide)

theorem not_mem_separators_of_isDigit {c : Char} (h : c.isDigit = true) :
    c ∉ separators :=
  not_mem_of_class (p := Char.isDigit) h (by decide)

theorem not_mem_separators_of_isSymbolCharacter {c : Char}
    (h : isSymbolCharacter c = true) : c ∉ separators :=
  not_mem_of_class h (by decide)

theorem isSymbolCharacter_of_isAlphabetic {c : Char} (h : isAlphabetic c = true) :
    isSymbolCharacter c = false := by
  have hnot : c ∉ symbolCharacters := not_mem_of_class h (by decide)
  simpa [isSymbolCharacter] using hnot

theorem isSymbolCharacter_of_isDigit {c : Char} (h : c.isDigit = true) :
    isSymbolCharacter c = false := by
  have hnot : c ∉ symbolCharacters := not_mem_of_class (p := Char.isDigit) h (by decide)
  simpa [isSymbolCharacter] using hnot

end ScanParse.Lexeme
