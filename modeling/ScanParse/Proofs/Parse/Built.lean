import ScanParse.Parse.Recursion
import ScanParse.Proofs.Parse.Denotation

namespace ScanParse

variable {ε τ α β γ : Type}

theorem mem_firstItem_iff {condition : τ → Bool} {input : Input τ} {found : Match τ τ} :
    found ∈ firstItem condition input ↔
      condition found.value = true ∧ found.value :: found.rest.toList = input.toList := by
  obtain ⟨value, rest⟩ := found
  cases hitems : input.toList with
  | nil => simp [firstItem, hitems]
  | cons item items =>
      simp only [firstItem, hitems, List.mem_ite_nil_right, List.mem_singleton, Match.mk.injEq,
        List.cons.injEq]
      constructor
      · rintro ⟨hcondition, rfl, rfl⟩
        exact ⟨hcondition, rfl, rfl⟩
      · rintro ⟨hcondition, rfl, rfl⟩
        exact ⟨hcondition, rfl, (Input.ofList_toList rest).symm⟩

/-- The value of a match that leaves nothing. -/
def Match.complete? (found : Match τ α) : Option α :=
  if found.rest.isEmpty then some found.value else none

namespace Parser

theorem mem_results_andThen_iff {p : Parser ε τ α} {q : Parser ε τ β} {input : Input τ}
    {found : Match τ (α × β)} :
    found ∈ (p.andThen q).results input ↔
      ∃ a ∈ p.results input, ∃ b ∈ q.results a.rest,
        Match.map (fun value => (a.value, value)) b = found := by
  simp

theorem mem_results_apply_iff {p : Parser ε τ (α → β)} {q : Parser ε τ α} {input : Input τ}
    {found : Match τ β} :
    found ∈ (p.apply q).results input ↔
      ∃ f ∈ p.results input, ∃ x ∈ q.results f.rest, Match.map f.value x = found := by
  simp

theorem mem_results_map2_iff {f : α → β → γ} {p : Parser ε τ α} {q : Parser ε τ β}
    {input : Input τ} {found : Match τ γ} :
    found ∈ (map2 f p q).results input ↔
      ∃ a ∈ p.results input, ∃ b ∈ q.results a.rest, Match.map (f a.value) b = found := by
  simp [results_map2]

theorem mem_results_startComplete_iff {p : Parser ε τ α} {input : Input τ} {value : α} :
    value ∈ (p.startComplete input).results ↔ ⟨value, .ofList []⟩ ∈ p.results input := by
  rw [startComplete, Attempt.results_filterMap, List.mem_filterMap]
  constructor
  · rintro ⟨⟨found, rest⟩, hfound, hvalue⟩
    rw [Option.ite_none_right_eq_some, Input.isEmpty_iff, Option.some.injEq] at hvalue
    obtain ⟨hempty, rfl⟩ := hvalue
    obtain rfl : rest = .ofList [] := Input.ext hempty
    exact hfound
  · intro hfound
    exact ⟨_, hfound, rfl⟩

theorem length_results_startComplete_le (p : Parser ε τ α) (input : Input τ) :
    (p.startComplete input).results.length ≤ (p.results input).length := by
  rw [startComplete, Attempt.results_filterMap]
  exact List.length_filterMap_le _ _

inductive Built (Leaf : (α : Type) → Parser ε τ α → Prop) : {α : Type} → Parser ε τ α → Prop
  | leaf {α : Type} {p : Parser ε τ α} : Leaf α p → Built Leaf p
  | pure {α : Type} (value : α) : Built Leaf (.pure value)
  | fail {α : Type} : Built Leaf (.fail : Parser ε τ α)
  | satisfy (condition : τ → Bool) : Built Leaf (.satisfy condition)
  | map {α β : Type} (f : α → β) {p : Parser ε τ α} : Built Leaf p → Built Leaf (p.map f)
  | tap {α : Type} (event : α → ε) {p : Parser ε τ α} : Built Leaf p → Built Leaf (p.tap event)
  | andThen {α β : Type} {p : Parser ε τ α} {q : Parser ε τ β} :
      Built Leaf p → Built Leaf q → Built Leaf (p.andThen q)
  | apply {α β : Type} {p : Parser ε τ (α → β)} {q : Parser ε τ α} :
      Built Leaf p → Built Leaf q → Built Leaf (p.apply q)
  | orElse {α : Type} {p q : Parser ε τ α} :
      Built Leaf p → Built Leaf q → Built Leaf (p.orElse q)
  | many {α : Type} {p : Parser ε τ α} : Built Leaf p → Built Leaf p.many
  | delay {α : Type} (events : List ε) {p : Unit → Parser ε τ α} :
      Built Leaf (p ()) → Built Leaf (delay events p)
  /-- A recursive parser, by its unfoldings: it finds nothing that none of them finds. -/
  | limit {α : Type} {p : Parser ε τ α} {unfolded : Nat → Parser ε τ α} :
      (∀ depth, Built Leaf (unfolded depth)) →
        (∀ (input : Input τ), ∀ found ∈ p.results input,
          ∃ depth, found ∈ (unfolded depth).results input) → Built Leaf p

namespace Built

variable {Leaf : (α : Type) → Parser ε τ α → Prop}

theorem map2 (f : α → β → γ) {p : Parser ε τ α} {q : Parser ε τ β} (hp : Built Leaf p)
    (hq : Built Leaf q) : Built Leaf (map2 f p q) :=
  apply (apply (pure f) hp) hq

theorem keepRight {p : Parser ε τ α} {q : Parser ε τ β} (hp : Built Leaf p)
    (hq : Built Leaf q) : Built Leaf (p.keepRight q) :=
  map2 _ hp hq

theorem unfold {ι : Type} {ρ : ι → Type}
    {body : ((i : ι) → Parser ε τ (ρ i)) → (i : ι) → Parser ε τ (ρ i)}
    (hbody : ∀ family, (∀ i, Built Leaf (family i)) → ∀ i, Built Leaf (body family i))
    (depth : Nat) (i : ι) : Built Leaf (unfold body depth i) := by
  induction depth generalizing i with
  | zero => exact fail
  | succ depth ih => exact delay [] (hbody _ ih i)

end Built

/-- Every result on every input meets the postcondition. -/
def Ensures (post : Input τ → Match τ α → Prop) (p : Parser ε τ α) : Prop :=
  ∀ (input : Input τ), ∀ found ∈ p.results input, post input found

section Ensures

variable {post : Input τ → Match τ α → Prop}

theorem ensures_fail : (fail : Parser ε τ α).Ensures post := by
  intro input found hfound
  simp at hfound

theorem Ensures.orElse {p q : Parser ε τ α} (hp : p.Ensures post) (hq : q.Ensures post) :
    (p.orElse q).Ensures post := by
  intro input found hfound
  rw [results_orElse, List.mem_append] at hfound
  rcases hfound with hfound | hfound
  · exact hp input found hfound
  · exact hq input found hfound

theorem Ensures.delay (events : List ε) {p : Unit → Parser ε τ α} (hp : (p ()).Ensures post) :
    (Parser.delay events p).Ensures post := by
  intro input found hfound
  rw [results_delay] at hfound
  exact hp input found hfound

theorem Ensures.limit {p : Parser ε τ α} {unfolded : Nat → Parser ε τ α}
    (hunfolded : ∀ depth, (unfolded depth).Ensures post)
    (h : ∀ (input : Input τ), ∀ found ∈ p.results input,
      ∃ depth, found ∈ (unfolded depth).results input) : p.Ensures post := by
  intro input found hfound
  obtain ⟨depth, hdepth⟩ := h input found hfound
  exact hunfolded depth input found hdepth

end Ensures

/-- Whatever is found leaves a suffix of the input. -/
def KeepsSuffix (p : Parser ε τ α) : Prop :=
  p.Ensures fun input found => found.rest.toList <:+ input.toList

theorem mem_results_eof_iff {input : Input τ} {found : Match τ Unit} :
    found ∈ (eof : Parser ε τ Unit).results input ↔ input.toList = [] ∧ found.rest = input := by
  rw [results_eof, List.mem_ite_nil_right, List.mem_singleton]
  constructor
  · rintro ⟨hempty, rfl⟩
    exact ⟨hempty, rfl⟩
  · rintro ⟨hempty, hrest⟩
    exact ⟨hempty, Match.ext rfl hrest⟩

theorem keepsSuffix_eof : (eof : Parser ε τ Unit).KeepsSuffix := by
  intro input found hfound
  obtain ⟨-, hrest⟩ := mem_results_eof_iff.mp hfound
  subst hrest
  exact List.suffix_rfl

theorem keepsSuffix_prefixes (lengths : List Nat) :
    (prefixes lengths : Parser ε τ (List τ)).KeepsSuffix := by
  intro input found hfound
  simp only [results, prefixes, ofMatches, Match.ofFronts, Attempt.results_ofList,
    List.mem_map] at hfound
  obtain ⟨length, -, rfl⟩ := hfound
  exact List.drop_suffix _ _

theorem suffix_of_repeats {p : Parser ε τ α} (hp : p.KeepsSuffix) {input rest : Input τ}
    {values : List α} (h : p.Repeats input values rest) : rest.toList <:+ input.toList := by
  induction h with
  | none input => exact List.suffix_rfl
  | more hitem _ _ ih => exact ih.trans (hp _ _ hitem)

theorem keepsSuffix_of_built {Leaf : (α : Type) → Parser ε τ α → Prop}
    (hleaf : ∀ (α : Type) (p : Parser ε τ α), Leaf α p → p.KeepsSuffix)
    {p : Parser ε τ α} (h : Built Leaf p) : p.KeepsSuffix := by
  induction h with
  | leaf hp => exact hleaf _ _ hp
  | pure value =>
      intro input found hfound
      rw [results_pure, List.mem_singleton] at hfound
      subst hfound
      exact List.suffix_rfl
  | fail => exact ensures_fail
  | satisfy condition =>
      intro input found hfound
      rw [results_satisfy, mem_firstItem_iff] at hfound
      rw [← hfound.2]
      exact List.suffix_cons _ _
  | map f _ ih =>
      intro input found hfound
      rw [results_map, List.mem_map] at hfound
      obtain ⟨a, ha, rfl⟩ := hfound
      exact ih input a ha
  | tap event _ ih =>
      intro input found hfound
      rw [results_tap] at hfound
      exact ih input found hfound
  | andThen _ _ ihp ihq =>
      intro input found hfound
      obtain ⟨a, ha, b, hb, rfl⟩ := mem_results_andThen_iff.mp hfound
      exact (ihq a.rest b hb).trans (ihp input a ha)
  | apply _ _ ihp ihq =>
      intro input found hfound
      obtain ⟨f, hf, x, hx, rfl⟩ := mem_results_apply_iff.mp hfound
      exact (ihq f.rest x hx).trans (ihp input f hf)
  | orElse _ _ ihp ihq => exact ihp.orElse ihq
  | many _ ih =>
      intro input found hfound
      exact suffix_of_repeats ih (mem_results_many_iff.mp hfound)
  | delay events _ ih => exact ih.delay events
  | limit _ hfound ih => exact Ensures.limit ih hfound

end Parser

end ScanParse
