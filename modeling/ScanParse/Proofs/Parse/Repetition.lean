import Mathlib.Data.List.Basic
import ScanParse.Parse.RepetitionResults
import ScanParse.Proofs.Parse.Pulling

/-!
Repetition by recursion on the size of the input, with no stack. The stack search
gives the same results in the same order. `Repeats` is the same as a relation, for
proofs about one result at a time. A repetition that has to match once differs in
two places: its first match may be empty, and it does not give the empty list.
-/

namespace ScanParse

variable {ε τ α : Type}

/-- Behind every match that consumes something, all repetitions from there; and
last the empty list. -/
def repetitions (found : Input τ → List (Match τ α)) (input : Input τ) :
    List (Match τ (List α)) :=
  ((found input).flatMap fun item =>
    if _h : item.rest.size < input.size then
      (repetitions found item.rest).map (Match.map (item.value :: ·))
    else []) ++ [⟨[], input⟩]
termination_by input.size

namespace Parser

theorem results_many_eq_repetitions (p : Parser ε τ α) :
    p.many.results = repetitions p.results := by
  funext input
  fun_induction repetitions p.results input with
  | case1 input ih =>
      rw [results_many]
      congr 1
      apply List.flatMap_congr
      intro item _
      split
      · rename_i hshort
        rw [ih item hshort]
      · rfl

/-- The stack search for repetitions gives what the recursion says. -/
theorem many_gives_repetitions (p : Parser ε τ α) (input : Input τ) :
    (p.many.start input).Gives (repetitions p.results input) := by
  rw [start_gives_iff, results_many_eq_repetitions]

/-- From an input, matches that each consume something lead to a remainder. -/
inductive Repeats (p : Parser ε τ α) : Input τ → List α → Input τ → Prop
  | none (input : Input τ) : Repeats p input [] input
  | more {input rest : Input τ} {item : Match τ α} {values : List α} :
      item ∈ p.results input → item.rest.size < input.size →
        Repeats p item.rest values rest → Repeats p input (item.value :: values) rest

theorem repeats_of_mem_results_many {p : Parser ε τ α} {input : Input τ}
    {found : Match τ (List α)} (h : found ∈ p.many.results input) :
    p.Repeats input found.value found.rest := by
  induction hsize : input.size using Nat.strongRecOn generalizing input found with
  | _ size ih =>
      subst hsize
      rw [results_many, List.mem_append, List.mem_flatMap, List.mem_singleton] at h
      rcases h with ⟨item, hitem, hfound⟩ | rfl
      · split at hfound
        · rename_i hshort
          obtain ⟨later, hlater, rfl⟩ := List.mem_map.mp hfound
          exact .more hitem hshort (ih _ hshort hlater rfl)
        · simp at hfound
      · exact .none input

theorem mem_results_many_of_repeats {p : Parser ε τ α} {input rest : Input τ} {values : List α}
    (h : p.Repeats input values rest) : ⟨values, rest⟩ ∈ p.many.results input := by
  induction h with
  | none input =>
      rw [results_many]
      simp
  | @more input rest item values hitem hshort _ ih =>
      rw [results_many, List.mem_append, List.mem_flatMap]
      refine .inl ⟨item, hitem, ?_⟩
      rw [if_pos hshort]
      exact List.mem_map.mpr ⟨⟨values, rest⟩, ih, rfl⟩

theorem Repeats.mono {p q : Parser ε τ α} (hpq : ∀ input, p.results input ⊆ q.results input)
    {input rest : Input τ} {values : List α} (h : p.Repeats input values rest) :
    q.Repeats input values rest := by
  induction h with
  | none input => exact .none input
  | more hitem hshort _ ih => exact .more (hpq _ hitem) hshort ih

theorem mem_results_many_iff {p : Parser ε τ α} {input : Input τ} {found : Match τ (List α)} :
    found ∈ p.many.results input ↔ p.Repeats input found.value found.rest :=
  ⟨repeats_of_mem_results_many, mem_results_many_of_repeats⟩

theorem Repeats.snoc {p : Parser ε τ α} {input rest : Input τ} {values : List α}
    {item : Match τ α} (h : p.Repeats input values rest) (hitem : item ∈ p.results rest)
    (hshort : item.rest.size < rest.size) : p.Repeats input (values ++ [item.value]) item.rest := by
  induction h with
  | none input => exact .more hitem hshort (.none item.rest)
  | more hfirst hfirstShort _ ih => exact .more hfirst hfirstShort (ih hitem hshort)

theorem Repeats.size_le {p : Parser ε τ α} {input rest : Input τ} {values : List α}
    (h : p.Repeats input values rest) : rest.size ≤ input.size := by
  induction h with
  | none input => exact Nat.le_refl _
  | more _ hshort _ ih => exact Nat.le_trans ih (Nat.le_of_lt hshort)

theorem size_le_of_mem_results_many {p : Parser ε τ α} {input : Input τ}
    {found : Match τ (List α)} (h : found ∈ p.many.results input) :
    found.rest.size ≤ input.size :=
  (repeats_of_mem_results_many h).size_le

theorem results_many_concat (p : Parser ε τ α) (input : Input τ) :
    (p.many.results input).dropLast ++ [⟨[], input⟩] = p.many.results input := by
  rw [results_many, List.dropLast_concat]

theorem size_lt_of_mem_dropLast {p : Parser ε τ α} {input : Input τ} {found : Match τ (List α)}
    (h : found ∈ (p.many.results input).dropLast) : found.rest.size < input.size := by
  rw [results_many, List.dropLast_concat, List.mem_flatMap] at h
  obtain ⟨item, -, hfound⟩ := h
  rw [List.mem_ite_nil_right] at hfound
  obtain ⟨later, hlater, rfl⟩ := List.mem_map.mp hfound.2
  have hle : later.rest.size ≤ item.rest.size := size_le_of_mem_results_many hlater
  exact Nat.lt_of_le_of_lt hle hfound.1

theorem mem_results_many1_iff {p : Parser ε τ α} {input : Input τ} {found : Match τ (List α)} :
    found ∈ p.many1.results input ↔
      ∃ item ∈ p.results input, ∃ later ∈ p.many.results item.rest,
        later.map (item.value :: ·) = found := by
  simp [results_many1]

section consuming

variable {p : Parser ε τ α} {input : Input τ}

theorem results_many_of_consuming (h : ∀ item ∈ p.results input, item.rest.size < input.size) :
    p.many.results input = p.many1.results input ++ [⟨[], input⟩] := by
  rw [results_many, results_many1]
  congr 1
  apply List.flatMap_congr
  intro item hitem
  rw [if_pos (h item hitem)]

theorem results_many_of_stuck (h : ∀ item ∈ p.results input, ¬item.rest.size < input.size) :
    p.many.results input = [⟨[], input⟩] := by
  rw [results_many, List.append_left_eq_self, List.flatMap_eq_nil_iff]
  intro item hitem
  rw [if_neg (h item hitem)]

end consuming

/-- A repetition that has to match once gives every first match, also an empty one, in
front of every repetition behind it. Where no match is empty, only the empty list is
missing from what any repetition gives. -/
theorem many1_gives_nonempty_repetitions (p : Parser ε τ α) (input : Input τ) :
    (p.many1.start input).Gives
      ((p.results input).flatMap fun item =>
        (p.many.results item.rest).map fun later => ⟨item.value :: later.value, later.rest⟩) ∧
    (∀ found ∈ p.many1.results input, found.value ≠ []) ∧
    ((∀ item ∈ p.results input, item.rest.size < input.size) →
      (p.many.start input).Gives (p.many1.results input ++ [⟨[], input⟩])) := by
  refine ⟨?_, ?_, ?_⟩
  · exact start_gives_iff.mpr (results_many1 p input)
  · intro found hfound
    obtain ⟨item, -, later, -, rfl⟩ := mem_results_many1_iff.mp hfound
    exact List.cons_ne_nil _ _
  · intro h
    exact start_gives_iff.mpr (results_many_of_consuming h)

theorem many1_gives_nonempty_repetitions_words :
    (∀ item ∈ (prefixes [2, 1] : Parser Unit Char (List Char)).results (.ofList ['a', 'a', 'b']),
        item.rest.size < 3) ∧
      ((prefixes [2, 1] : Parser Unit Char (List Char)).many.start
          (.ofList ['a', 'a', 'b'])).Gives
        ((prefixes [2, 1] : Parser Unit Char (List Char)).many1.results
            (.ofList ['a', 'a', 'b']) ++ [⟨[], .ofList ['a', 'a', 'b']⟩]) := by
  have hwords : ∀ item ∈
      (prefixes [2, 1] : Parser Unit Char (List Char)).results (.ofList ['a', 'a', 'b']),
      item.rest.size < 3 := by
    decide
  exact ⟨hwords, (many1_gives_nonempty_repetitions _ _).2.2 hwords⟩

end Parser

end ScanParse
