import ScanParse.Proofs.Parse.Lookahead

/-!
Repetition of a parser that never finds more than one match. The search goes down from
match to match as long as they consume something, and then gives them back one by one. So
two repetitions one behind the other share out the matches in every way, each way once.
-/

namespace ScanParse

variable {ε τ α β : Type}

/-- What is left behind matches that follow each other from an input. -/
def Input.behind (input : Input τ) : List (Match τ α) → Input τ
  | [] => input
  | item :: items => item.rest.behind items

/-- Matches that follow each other from an input, as one match. -/
def Match.gather (input : Input τ) (items : List (Match τ α)) : Match τ (List α) :=
  ⟨items.map Match.value, input.behind items⟩

theorem Match.filterMap_complete?_map (f : α → β) (found : List (Match τ α)) :
    (found.map (Match.map f)).filterMap complete? = (found.filterMap complete?).map f := by
  rw [List.filterMap_map, List.map_filterMap]
  apply List.filterMap_congr
  intro item _
  by_cases hempty : item.rest.isEmpty = true
  · simp [complete?, Match.map, hempty]
  · simp [complete?, Match.map, hempty]

theorem map_range_sub (f : Nat → β) (n : Nat) :
    ((List.range (n + 1)).map fun k => f (n + 1 - k)) =
      (List.range (n + 1)).map fun k => f (n - k + 1) := by
  apply List.map_congr_left
  intro k hk
  have hle : k ≤ n := Nat.lt_succ_iff.mp (List.mem_range.mp hk)
  rw [Nat.succ_sub hle]

theorem map_range_succ_sub (f : Nat → β) (n : Nat) :
    ((List.range (n + 1 + 1)).map fun k => f (n + 1 - k)) =
      ((List.range (n + 1)).map fun k => f (n - k + 1)) ++ [f 0] := by
  rw [List.range_succ, List.map_append, map_range_sub, List.map_singleton, Nat.sub_self]

namespace Parser

/-- The matches that a parser finds one behind the other, each the first that consumes
something, up to where there is none. -/
def successive (p : Parser ε τ α) (input : Input τ) : List (Match τ α) :=
  match _h : (p.results input).find? fun item => item.rest.size < input.size with
  | none => []
  | some item => item :: successive p item.rest
termination_by input.size
decreasing_by simpa using List.find?_some _h

section single

variable {p : Parser ε τ α} {input : Input τ}

theorem successive_of_stuck (h : ∀ item ∈ p.results input, ¬item.rest.size < input.size) :
    p.successive input = [] := by
  have hnone : ((p.results input).find? fun item => item.rest.size < input.size) = none :=
    List.find?_eq_none.mpr (by simpa using h)
  rw [successive]
  split <;> simp_all

theorem successive_of_single {item : Match τ α} (h : p.results input = [item])
    (hshort : item.rest.size < input.size) :
    p.successive input = item :: p.successive item.rest := by
  have hsome : ((p.results input).find? fun item => item.rest.size < input.size) = some item := by
    rw [h]
    exact List.find?_cons_of_pos (decide_eq_true hshort)
  rw [successive]
  split <;> simp_all

theorem results_many_of_single {item : Match τ α} (h : p.results input = [item])
    (hshort : item.rest.size < input.size) :
    p.many.results input =
      (p.many.results item.rest).map (Match.map (item.value :: ·)) ++ [⟨[], input⟩] := by
  rw [results_many, h, List.flatMap_singleton, if_pos hshort]

theorem nil_or_single (h : (p.results input).length ≤ 1) :
    p.results input = [] ∨ ∃ item, p.results input = [item] := by
  match hresults : p.results input with
  | [] => exact .inl rfl
  | [item] => exact .inr ⟨item, rfl⟩
  | _ :: _ :: _ => simp [hresults] at h

theorem results_eq_singleton {item : Match τ α} (h : (p.results input).length ≤ 1)
    (hitem : item ∈ p.results input) : p.results input = [item] := by
  rcases nil_or_single h with hnil | ⟨found, hfound⟩
  · rw [hnil] at hitem
    exact absurd hitem List.not_mem_nil
  · rw [hfound, List.mem_singleton] at hitem
    rw [hfound, hitem]

theorem stuck_or_single (h : (p.results input).length ≤ 1) :
    (∀ item ∈ p.results input, ¬item.rest.size < input.size) ∨
      ∃ item, p.results input = [item] ∧ item.rest.size < input.size := by
  by_cases hsome : ∃ item ∈ p.results input, item.rest.size < input.size
  · obtain ⟨item, hitem, hshort⟩ := hsome
    exact .inr ⟨item, results_eq_singleton h hitem, hshort⟩
  · left
    intro item hitem hshort
    exact hsome ⟨item, hitem, hshort⟩

end single

/-- All of the matches first, then one less at every result. -/
theorem results_many_eq_gather {p : Parser ε τ α} (h : ∀ input, (p.results input).length ≤ 1)
    (input : Input τ) :
    p.many.results input =
      (List.range ((p.successive input).length + 1)).map fun k =>
        .gather input ((p.successive input).take ((p.successive input).length - k)) := by
  induction hsize : input.size using Nat.strongRecOn generalizing input with
  | _ size ih =>
      subst hsize
      rcases stuck_or_single (h input) with hstuck | ⟨item, hitem, hshort⟩
      · rw [results_many_of_stuck hstuck, successive_of_stuck hstuck]
        rfl
      · rw [results_many_of_single hitem hshort, successive_of_single hitem hshort,
          ih _ hshort item.rest rfl, List.length_cons,
          map_range_succ_sub fun k => Match.gather input ((item :: p.successive item.rest).take k),
          List.map_map]
        rfl

theorem pairwise_results_many {p : Parser ε τ α} (h : ∀ input, (p.results input).length ≤ 1)
    (input : Input τ) :
    (p.many.results input).Pairwise fun found later => found.rest.size < later.rest.size := by
  induction hsize : input.size using Nat.strongRecOn generalizing input with
  | _ size ih =>
      subst hsize
      rcases stuck_or_single (h input) with hstuck | ⟨item, hitem, hshort⟩
      · rw [results_many_of_stuck hstuck]
        exact List.pairwise_singleton _ _
      · rw [results_many_of_single hitem hshort, List.pairwise_append, List.pairwise_map]
        refine ⟨ih _ hshort item.rest rfl, List.pairwise_singleton _ _, ?_⟩
        intro found hfound last hlast
        obtain ⟨later, hlater, rfl⟩ := List.mem_map.mp hfound
        obtain rfl := List.mem_singleton.mp hlast
        have hle : later.rest.size ≤ item.rest.size := size_le_of_mem_results_many hlater
        exact Nat.lt_of_le_of_lt hle hshort

/-- If there is never more than one match, a repetition gives all the successive matches,
then all but the last, and so on down to none. -/
theorem many_gives_longest_first {p : Parser ε τ α}
    (h : ∀ input, (p.results input).length ≤ 1) (input : Input τ) :
    (p.many.start input).Gives
      ((List.range ((p.successive input).length + 1)).map fun k =>
        .gather input ((p.successive input).take ((p.successive input).length - k))) ∧
    (p.many.results input).Pairwise (fun found later => found.rest.size < later.rest.size) ∧
    (p.many.results input).getLast? = some ⟨[], input⟩ := by
  refine ⟨?_, pairwise_results_many h input, ?_⟩
  · exact start_gives_iff.mpr (results_many_eq_gather h input)
  · rw [results_many]
    exact List.getLast?_concat

theorem many_gives_longest_first_letters :
    (∀ input, ((token 'a' : Parser Unit Char Char).results input).length ≤ 1) ∧
      ((token 'a' : Parser Unit Char Char).many.start (.ofList ['a', 'a', 'b'])).Gives
        [⟨['a', 'a'], .ofList ['b']⟩, ⟨['a'], .ofList ['a', 'b']⟩,
          ⟨[], .ofList ['a', 'a', 'b']⟩] := by
  have hsingle : ∀ input, ((token 'a' : Parser Unit Char Char).results input).length ≤ 1 :=
    length_results_satisfy_le _
  have hfirst : (token 'a' : Parser Unit Char Char).results (.ofList ['a', 'a', 'b']) =
      [⟨'a', .ofList ['a', 'b']⟩] := rfl
  have hsecond : (token 'a' : Parser Unit Char Char).results (.ofList ['a', 'b']) =
      [⟨'a', .ofList ['b']⟩] := rfl
  have hitems : (token 'a' : Parser Unit Char Char).successive (.ofList ['a', 'a', 'b']) =
      [⟨'a', .ofList ['a', 'b']⟩, ⟨'a', .ofList ['b']⟩] := by
    rw [successive_of_single hfirst (by decide), successive_of_single hsecond (by decide),
      successive_of_stuck (by decide)]
  have hgives := (many_gives_longest_first hsingle (.ofList ['a', 'a', 'b'])).1
  rw [hitems] at hgives
  exact ⟨hsingle, hgives⟩

theorem results_startComplete (p : Parser ε τ α) (input : Input τ) :
    (p.startComplete input).results = (p.results input).filterMap Match.complete? := by
  rw [startComplete, Attempt.results_filterMap]
  rfl

theorem results_startComplete_andThen (p : Parser ε τ α) (q : Parser ε τ β) (input : Input τ) :
    ((p.andThen q).startComplete input).results =
      (p.results input).flatMap fun found =>
        (q.startComplete found.rest).results.map (Prod.mk found.value) := by
  simp only [results_startComplete, results_andThen, List.filterMap_flatMap,
    Match.filterMap_complete?_map]

theorem stuck_of_isEmpty {p : Parser ε τ α} {input : Input τ} (h : input.isEmpty = true) :
    ∀ item ∈ p.results input, ¬item.rest.size < input.size := by
  intro item _
  rw [beq_iff_eq.mp h]
  exact Nat.not_lt_zero _

section splits

variable {p : Parser ε τ α} {q : Parser ε τ β} {input rest : Input τ} {values : List α}

theorem results_startComplete_many_andThen
    (h : ∀ item ∈ p.results input, item.rest.size < input.size) :
    ((p.many.andThen q).startComplete input).results =
      ((p.many1.andThen q).startComplete input).results ++
        (q.startComplete input).results.map (Prod.mk []) := by
  rw [results_startComplete_andThen, results_startComplete_andThen, results_many_of_consuming h,
    List.flatMap_append, List.flatMap_singleton]

theorem results_startComplete_many1_andThen {item : Match τ α} (h : p.results input = [item]) :
    ((p.many1.andThen q).startComplete input).results =
      ((p.many.andThen q).startComplete item.rest).results.map
        (Prod.map (item.value :: ·) id) := by
  rw [results_startComplete_andThen, results_startComplete_andThen, results_many1, h,
    List.flatMap_singleton, List.flatMap_map, List.map_flatMap]
  simp only [List.map_map]
  rfl

variable (h : ∀ input, (p.results input).length ≤ 1)
include h

theorem results_startComplete_many (hvalues : p.Repeats input values rest)
    (hrest : rest.isEmpty = true) : (p.many.startComplete input).results = [values] := by
  rw [results_startComplete]
  induction hvalues with
  | none input =>
      rw [results_many_of_stuck (stuck_of_isEmpty hrest)]
      exact List.filterMap_cons_some (if_pos hrest)
  | @more input rest item values hitem hshort hlater ih =>
      have hopen : (⟨[], input⟩ : Match τ (List α)).complete? = none :=
        if_neg fun hempty => stuck_of_isEmpty hempty item hitem hshort
      rw [results_many_of_single (results_eq_singleton (h input) hitem) hshort,
        List.filterMap_append, Match.filterMap_complete?_map, ih hrest,
        List.filterMap_cons_none hopen]
      rfl

theorem results_startComplete_many_many (hvalues : p.Repeats input values rest)
    (hrest : rest.isEmpty = true) :
    ((p.many.andThen p.many).startComplete input).results =
      (List.range (values.length + 1)).map fun k =>
        (values.take (values.length - k), values.drop (values.length - k)) := by
  induction hvalues with
  | none input =>
      rw [results_startComplete_andThen, results_many_of_stuck (stuck_of_isEmpty hrest),
        List.flatMap_singleton, results_startComplete_many h (.none input) hrest]
      rfl
  | @more input rest item values hitem hshort hlater ih =>
      have hitem' : p.results input = [item] := results_eq_singleton (h input) hitem
      have hconsuming : ∀ item ∈ p.results input, item.rest.size < input.size := by
        rw [hitem']
        simpa using hshort
      rw [results_startComplete_many_andThen hconsuming,
        results_startComplete_many1_andThen hitem', ih hrest,
        results_startComplete_many h (.more hitem hshort hlater) hrest, List.length_cons,
        map_range_succ_sub fun k => ((item.value :: values).take k, (item.value :: values).drop k),
        List.map_map]
      rfl

end splits

/-- If there is never more than one match, and one or more of them, each consuming
something, take the whole input, then a repetition that has to match and another
repetition behind it share them out in every way, the longest first part first. -/
theorem complete_gives_splits {p : Parser ε τ α} (h : ∀ input, (p.results input).length ≤ 1)
    {input : Input τ} {values : List α} (hvalues : p.Repeats input values (.ofList []))
    (hne : values ≠ []) :
    ((p.many1 + p.many).startComplete input).Gives
      ((List.range values.length).map fun j =>
        (values.take (values.length - j), values.drop (values.length - j))) := by
  cases hvalues with
  | none => exact absurd rfl hne
  | @more _ _ item values hitem hshort hlater =>
      apply Run.gives_iff.mpr
      change ((p.many1.andThen p.many).startComplete input).results = _
      rw [results_startComplete_many1_andThen (results_eq_singleton (h input) hitem),
        results_startComplete_many_many h hlater rfl, List.length_cons,
        map_range_sub fun k => ((item.value :: values).take k, (item.value :: values).drop k),
        List.map_map]
      rfl

theorem complete_gives_splits_letters :
    (∀ input, ((token 'a' : Parser Unit Char Char).results input).length ≤ 1) ∧
      (token 'a' : Parser Unit Char Char).Repeats (.ofList ['a', 'a', 'a']) ['a', 'a', 'a']
        (.ofList []) ∧
      (((token 'a' : Parser Unit Char Char).many1 +
          (token 'a' : Parser Unit Char Char).many).startComplete (.ofList ['a', 'a', 'a'])).Gives
        [(['a', 'a', 'a'], []), (['a', 'a'], ['a']), (['a'], ['a', 'a'])] := by
  have hsingle : ∀ input, ((token 'a' : Parser Unit Char Char).results input).length ≤ 1 :=
    length_results_satisfy_le _
  have hletter : ∀ rest : List Char, ⟨'a', .ofList rest⟩ ∈
      (token 'a' : Parser Unit Char Char).results (.ofList ('a' :: rest)) :=
    fun _ => List.mem_singleton.mpr rfl
  have hrepeats : (token 'a' : Parser Unit Char Char).Repeats (.ofList ['a', 'a', 'a'])
      ['a', 'a', 'a'] (.ofList []) :=
    .more (hletter ['a', 'a']) (by decide)
      (.more (hletter ['a']) (by decide) (.more (hletter []) (by decide) (.none _)))
  exact ⟨hsingle, hrepeats, complete_gives_splits hsingle hrepeats (by decide)⟩

end Parser

end ScanParse
