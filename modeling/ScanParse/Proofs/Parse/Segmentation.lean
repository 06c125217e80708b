import Mathlib.Algebra.Group.Nat.Defs
import Mathlib.Data.List.Infix
import Mathlib.Data.List.Nodup
import Mathlib.Data.List.TakeWhile
import ScanParse.Proofs.Parse.Unwinding

namespace ScanParse

variable {ε τ α : Type}

theorem prefix_takeWhile_iff {condition : τ → Bool} {front items : List τ} :
    front <+: items.takeWhile condition ↔
      (∀ item ∈ front, condition item = true) ∧ front <+: items := by
  constructor
  · intro h
    refine ⟨?_, h.trans (List.takeWhile_prefix condition)⟩
    intro item hitem
    exact List.mem_takeWhile_imp (h.subset hitem)
  · rintro ⟨hfront, later, rfl⟩
    rw [List.takeWhile_append_of_pos hfront]
    exact List.prefix_append _ _

theorem append_toList_eq_iff {front : List τ} {rest input : Input τ} :
    front ++ rest.toList = input.toList ↔
      front <+: input.toList ∧ rest = input.drop front.length := by
  constructor
  · intro h
    refine ⟨⟨rest.toList, h⟩, Input.ext ?_⟩
    rw [Input.toList_drop, ← h, List.drop_left]
  · rintro ⟨hfront, rfl⟩
    rw [Input.toList_drop]
    exact List.prefix_iff_eq_append.mp hfront

namespace Parser

/-- Found in front of any rest are exactly the good values, and they take their items. -/
def Recognizes (good : α → Prop) (items : α → List τ) (p : Parser ε τ α) : Prop :=
  ∀ (input : Input τ) (found : Match τ α), found ∈ p.results input ↔
    good found.value ∧ items found.value ++ found.rest.toList = input.toList

theorem recognizes_satisfy (condition : τ → Bool) :
    (satisfy condition : Parser ε τ τ).Recognizes (condition · = true) fun item => [item] := by
  intro input found
  rw [results_satisfy, mem_firstItem_iff]
  rfl

section Recognizes

variable {good : α → Prop} {items : α → List τ} {p : Parser ε τ α}

theorem Recognizes.of_repeats (hp : p.Recognizes good items) {input rest : Input τ}
    {values : List α} (h : p.Repeats input values rest) :
    (∀ value ∈ values, good value ∧ items value ≠ []) ∧
      values.flatMap items ++ rest.toList = input.toList := by
  induction h with
  | none input => exact ⟨fun _ hvalue => absurd hvalue List.not_mem_nil, rfl⟩
  | @more input rest item values hitem hshort _ ih =>
      obtain ⟨hgood, hfront⟩ := (hp input item).mp hitem
      have hne : items item.value ≠ [] := by
        intro hnil
        rw [hnil, List.nil_append] at hfront
        rw [Input.ext hfront] at hshort
        exact Nat.lt_irrefl _ hshort
      refine ⟨List.forall_mem_cons.mpr ⟨⟨hgood, hne⟩, ih.1⟩, ?_⟩
      rw [List.flatMap_cons, List.append_assoc, ih.2, hfront]

theorem Recognizes.repeats (hp : p.Recognizes good items) {values : List α}
    (hvalues : ∀ value ∈ values, good value ∧ items value ≠ []) (rest : Input τ) :
    p.Repeats (.ofList (values.flatMap items ++ rest.toList)) values rest := by
  induction values with
  | nil =>
      rw [List.flatMap_nil, List.nil_append, Input.ofList_toList]
      exact .none rest
  | cons value values ih =>
      obtain ⟨⟨hgood, hne⟩, hlater⟩ := List.forall_mem_cons.mp hvalues
      have hbehind : p.Repeats (.ofList (values.flatMap items ++ rest.toList)) values rest :=
        ih hlater
      have hfirst : ⟨value, .ofList (values.flatMap items ++ rest.toList)⟩ ∈
          p.results (.ofList ((value :: values).flatMap items ++ rest.toList)) := by
        refine (hp _ _).mpr ⟨hgood, ?_⟩
        rw [Input.toList_ofList, Input.toList_ofList, List.flatMap_cons, List.append_assoc]
      have hpos : 0 < (items value).length := List.length_pos_iff.mpr hne
      refine .more hfirst ?_ hbehind
      simp only [Input.size_ofList, List.flatMap_cons, List.length_append]
      omega

theorem Recognizes.many (hp : p.Recognizes good items) :
    p.many.Recognizes (fun values => ∀ value ∈ values, good value ∧ items value ≠ [])
      (List.flatMap items) := by
  intro input found
  rw [mem_results_many_iff]
  constructor
  · exact hp.of_repeats
  · rintro ⟨hvalues, hinput⟩
    have hrepeats := hp.repeats hvalues found.rest
    rwa [hinput, Input.ofList_toList] at hrepeats

end Recognizes

theorem nodup_values_many {p : Parser ε τ α}
    (h : ∀ input, ((p.results input).map Match.value).Nodup) (input : Input τ) :
    ((p.many.results input).map Match.value).Nodup := by
  induction hsize : input.size using Nat.strongRecOn generalizing input with
  | _ size ih =>
      subst hsize
      rw [results_many, List.nodup_iff_pairwise_ne, List.pairwise_map, List.pairwise_append,
        List.pairwise_flatMap]
      refine ⟨⟨?_, ?_⟩, List.pairwise_singleton _ _, ?_⟩
      · intro item _
        split
        · rename_i hshort
          rw [List.pairwise_map]
          refine (List.pairwise_map.mp (ih _ hshort item.rest rfl)).imp ?_
          intro found later hne hcons
          exact hne (List.cons.inj hcons).2
        · exact .nil
      · refine (List.pairwise_map.mp (h input)).imp ?_
        intro item other hne found hfound later hlater hcons
        rw [List.mem_ite_nil_right] at hfound hlater
        obtain ⟨found, -, rfl⟩ := List.mem_map.mp hfound.2
        obtain ⟨later, -, rfl⟩ := List.mem_map.mp hlater.2
        exact hne (List.cons.inj hcons).1
      · intro found hfound last hlast
        obtain ⟨item, -, hfound⟩ := List.mem_flatMap.mp hfound
        rw [List.mem_ite_nil_right] at hfound
        obtain ⟨found, -, rfl⟩ := List.mem_map.mp hfound.2
        obtain rfl := List.mem_singleton.mp hlast
        exact List.cons_ne_nil _ _

theorem nodup_values_of_length_le_one {p : Parser ε τ α} {input : Input τ}
    (h : (p.results input).length ≤ 1) : ((p.results input).map Match.value).Nodup := by
  rcases nil_or_single h with hnil | ⟨item, hitem⟩
  · rw [hnil]
    exact List.nodup_nil
  · rw [hitem]
    exact List.nodup_singleton _

theorem results_many_many (p : Parser ε τ α) (input : Input τ) :
    p.many.many.results input =
      ((p.many.results input).dropLast.flatMap fun block =>
        (p.many.many.results block.rest).map (Match.map (block.value :: ·))) ++
          [⟨[], input⟩] := by
  rw [results_many p.many, ← results_many_concat p, List.flatMap_append, List.flatMap_singleton,
    if_neg (Nat.lt_irrefl _), List.append_nil, List.dropLast_concat]
  congr 1
  apply List.flatMap_congr
  intro block hblock
  rw [if_pos (size_lt_of_mem_dropLast hblock)]

/-- One match in front joins the first block of a list that is not empty, or it is a block
of its own, or it is left. -/
theorem results_many_many_of_single {p : Parser ε τ α} {input : Input τ} {item : Match τ α}
    (h : p.results input = [item]) (hshort : item.rest.size < input.size) :
    p.many.many.results input =
      (p.many.many.results item.rest).dropLast.map
          (Match.map (List.modifyHead (item.value :: ·))) ++
        (p.many.many.results item.rest).map (Match.map ([item.value] :: ·)) ++
          [⟨[], input⟩] := by
  have hjoined : (p.many.many.results item.rest).dropLast.map
        (Match.map (List.modifyHead (item.value :: ·))) =
      (p.many.results item.rest).dropLast.flatMap fun block =>
        (p.many.many.results block.rest).map (Match.map ((item.value :: block.value) :: ·)) := by
    rw [results_many_many p item.rest, List.dropLast_concat, List.map_flatMap]
    simp only [List.map_map]
    rfl
  rw [hjoined, results_many_many p input, results_many_of_single h hshort, List.dropLast_concat,
    ← results_many_concat p item.rest, List.map_append, List.flatMap_append, List.flatMap_map,
    List.dropLast_concat, List.map_singleton, List.flatMap_singleton]
  rfl

theorem results_many_many_of_stuck {p : Parser ε τ α} {input : Input τ}
    (h : ∀ item ∈ p.results input, ¬item.rest.size < input.size) :
    p.many.many.results input = [⟨[], input⟩] := by
  rw [results_many_many, results_many_of_stuck h]
  rfl

theorem length_results_many_many {p : Parser ε τ α} (h : ∀ input, (p.results input).length ≤ 1)
    (input : Input τ) :
    (p.many.many.results input).length = 2 ^ (p.successive input).length := by
  induction hsize : input.size using Nat.strongRecOn generalizing input with
  | _ size ih =>
      subst hsize
      rcases stuck_or_single (h input) with hstuck | ⟨item, hitem, hshort⟩
      · rw [results_many_many_of_stuck hstuck, successive_of_stuck hstuck]
        rfl
      · have hpos : 1 ≤ 2 ^ (p.successive item.rest).length := Nat.one_le_two_pow
        rw [results_many_many_of_single hitem hshort, successive_of_single hitem hshort,
          List.length_append, List.length_append, List.length_map, List.length_map,
          List.length_dropLast, ih _ hshort item.rest rfl, List.length_singleton, List.length_cons,
          Nat.pow_succ]
        omega

theorem map_value_successive_satisfy (condition : τ → Bool) (items : List τ) :
    ((satisfy condition : Parser ε τ τ).successive (.ofList items)).map Match.value =
      items.takeWhile condition := by
  induction items with
  | nil =>
      rw [successive_of_stuck (stuck_of_isEmpty rfl)]
      rfl
  | cons item items ih =>
      by_cases hitem : condition item = true
      · have hresults : (satisfy condition : Parser ε τ τ).results (.ofList (item :: items)) =
            [⟨item, .ofList items⟩] := by
          rw [results_satisfy]
          exact if_pos hitem
        rw [successive_of_single hresults (Nat.lt_succ_self _), List.map_cons, ih,
          List.takeWhile_cons_of_pos hitem]
      · have hresults : (satisfy condition : Parser ε τ τ).results (.ofList (item :: items)) =
            [] := by
          rw [results_satisfy]
          exact if_neg hitem
        rw [successive_of_stuck (by simp [hresults]), List.takeWhile_cons_of_neg hitem]
        rfl

theorem mem_results_many_many_satisfy_iff {condition : τ → Bool} {input : Input τ}
    {found : Match τ (List (List τ))} :
    found ∈ (satisfy condition : Parser ε τ τ).many.many.results input ↔
      (∀ block ∈ found.value, block ≠ []) ∧
        found.value.flatten <+: input.toList.takeWhile condition ∧
        found.rest = input.drop found.value.flatten.length := by
  have hjoin : found.value.flatMap (List.flatMap fun item => [item]) = found.value.flatten := by
    rw [show (List.flatMap fun item : τ => [item]) = id from funext List.flatMap_singleton',
      List.flatMap_id]
  rw [(recognizes_satisfy condition).many.many input found, hjoin, append_toList_eq_iff,
    prefix_takeWhile_iff, List.forall_mem_flatten]
  simp only [List.flatMap_singleton', ne_eq, List.cons_ne_nil, not_false_eq_true, and_true]
  constructor
  · rintro ⟨hblocks, hfront, hrest⟩
    exact ⟨fun block hblock => (hblocks block hblock).2,
      ⟨fun block hblock => (hblocks block hblock).1, hfront⟩, hrest⟩
  · rintro ⟨hne, ⟨hcondition, hfront⟩, hrest⟩
    exact ⟨fun block hblock => ⟨hcondition block hblock, hne block hblock⟩, hfront, hrest⟩

/-- A repetition of a repetition gives every list of blocks, none of them empty, that
joined begin the items meeting the condition, and each of these lists once: `2 ^ n` lists
where `n` such items come first. -/
theorem many_many_gives_segmentations (condition : τ → Bool) (input : Input τ) :
    ∃ found : List (Match τ (List (List τ))),
      ((satisfy condition : Parser ε τ τ).many.many.start input).Gives found ∧
      found.length = 2 ^ (input.toList.takeWhile condition).length ∧
      (found.map Match.value).Nodup ∧
      ∀ item, item ∈ found ↔
        (∀ block ∈ item.value, block ≠ []) ∧
          item.value.flatten <+: input.toList.takeWhile condition ∧
          item.rest = input.drop item.value.flatten.length := by
  have hsingle : ∀ input, ((satisfy condition : Parser ε τ τ).results input).length ≤ 1 :=
    length_results_satisfy_le condition
  refine ⟨_, start_gives_iff.mpr rfl, ?_, ?_, fun _ => mem_results_many_many_satisfy_iff⟩
  · obtain ⟨items, rfl⟩ : ∃ items, input = .ofList items := ⟨input.toList, by simp⟩
    rw [length_results_many_many hsingle, Input.toList_ofList,
      ← map_value_successive_satisfy (ε := ε), List.length_map]
  · exact nodup_values_many (nodup_values_many fun input =>
      nodup_values_of_length_le_one (hsingle input)) input

end Parser

end ScanParse
