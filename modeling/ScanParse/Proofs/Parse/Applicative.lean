import Mathlib.Logic.Function.Basic
import ScanParse.Proofs.Parse.Laws
import ScanParse.Proofs.Parse.Requests

namespace ScanParse.Parser

variable {ε τ α β γ δ : Type}

/-- The same events and results in the same order. What is logged at the start of the one
search may be logged with the first request to the other. -/
def SameSearch (p q : Parser ε τ α) : Prop :=
  ∀ input : Input τ, (p.start input).toRun = (q.start input).toRun

theorem SameSearch.results_eq {p q : Parser ε τ α} (h : p.SameSearch q) :
    p.results = q.results := by
  funext input
  rw [results, results, ← Attempt.results_toRun, h input, Attempt.results_toRun]

theorem toRun_pure (value : α) (input : Input τ) :
    ((pure value : Parser ε τ α).start input).toRun = .ofList [⟨value, input⟩] := rfl

theorem toRun_pure_apply (f : α → β) (p : Parser ε τ α) (input : Input τ) :
    (((pure f).apply p).start input).toRun = (p.start input).toRun.map (Match.map f) := by
  rw [toRun_apply, toRun_pure, Run.ofList_singleton_bind]
  rfl

theorem toRun_apply_pure (p : Parser ε τ (α → β)) (value : α) (input : Input τ) :
    ((p.apply (pure value)).start input).toRun =
      (p.start input).toRun.map (Match.map fun f => f value) := by
  rw [toRun_apply, ← Run.bind_ofList_singleton]
  rfl

theorem toRun_map2 (f : α → β → γ) (p : Parser ε τ α) (q : Parser ε τ β) (input : Input τ) :
    ((map2 f p q).start input).toRun =
      (p.start input).toRun.bind fun a => (q.start a.rest).toRun.map (Match.map (f a.value)) := by
  rw [map2, toRun_apply, toRun_pure_apply, Run.bind_map]
  rfl

theorem toRun_map3 (f : α → β → γ → δ) (p : Parser ε τ α) (q : Parser ε τ β)
    (r : Parser ε τ γ) (input : Input τ) :
    ((map3 f p q r).start input).toRun =
      (p.start input).toRun.bind fun a => (q.start a.rest).toRun.bind fun b =>
        (r.start b.rest).toRun.map (Match.map (f a.value b.value)) := by
  change ((apply (map2 f p q) r).start input).toRun = _
  rw [toRun_apply, toRun_map2, Run.bind_assoc]
  simp only [Run.bind_map]
  rfl

theorem sameSearch_map2 (f : α × β → γ) (p : Parser ε τ α) (q : Parser ε τ β) :
    (map2 (Function.curry f) p q).SameSearch ((p.andThen q).map f) := by
  intro input
  rw [toRun_map2, toRun_map, toRun_andThen, Run.map_bind]
  simp only [Run.map_map]
  rfl

theorem sameSearch_map3 (f : (α × β) × γ → δ) (p : Parser ε τ α) (q : Parser ε τ β)
    (r : Parser ε τ γ) :
    (map3 (Function.curry (Function.curry f)) p q r).SameSearch
      (((p.andThen q).andThen r).map f) := by
  intro input
  rw [toRun_map3, toRun_map, toRun_andThen, toRun_andThen, Run.bind_assoc, Run.map_bind]
  simp only [Run.map_bind, Run.bind_map, Run.map_map]
  rfl

theorem sameSearch_keepRight (p : Parser ε τ α) (q : Parser ε τ β) :
    (p.keepRight q).SameSearch ((p.andThen q).map Prod.snd) :=
  sameSearch_map2 Prod.snd p q

theorem sameSearch_keepLeft (p : Parser ε τ α) (q : Parser ε τ β) :
    (p.keepLeft q).SameSearch ((p.andThen q).map Prod.fst) :=
  sameSearch_map2 Prod.fst p q

theorem sameSearch_identity (p : Parser ε τ α) : ((pure id).apply p).SameSearch p := by
  intro input
  rw [toRun_pure_apply]
  exact Run.map_id _

theorem sameSearch_composition (p : Parser ε τ (β → γ)) (q : Parser ε τ (α → β))
    (r : Parser ε τ α) :
    ((((pure fun g f => g ∘ f).apply p).apply q).apply r).SameSearch (p.apply (q.apply r)) := by
  intro input
  change ((apply (map2 (fun g f => g ∘ f) p q) r).start input).toRun = _
  rw [toRun_apply, toRun_map2, toRun_apply, Run.bind_assoc]
  simp only [toRun_apply, Run.bind_map, Run.map_bind, Run.map_map]
  rfl

theorem sameSearch_interchange (p : Parser ε τ (α → β)) (value : α) :
    (p.apply (pure value)).SameSearch ((pure fun f => f value).apply p) := by
  intro input
  rw [toRun_apply_pure, toRun_pure_apply]

theorem results_startComplete_eq (p : Parser ε τ α) (input : Input τ) :
    (p.startComplete input).results = ((p.keepLeft eof).results input).map Match.value := by
  rw [startComplete, Attempt.results_filterMap, results_keepLeft,
    List.filterMap_eq_flatMap_toList, List.map_flatMap]
  apply List.flatMap_congr
  intro found _
  rw [results_eof]
  by_cases hrest : found.rest.toList = []
  · rw [if_pos (Input.isEmpty_iff.mpr hrest), if_pos hrest]
    rfl
  · rw [if_neg (mt Input.isEmpty_iff.mp hrest), if_neg hrest]
    rfl

theorem head?_results_first (p : Parser ε τ α) (input : Input τ) :
    (p.first input).results.head? = (p.startComplete input).results.head? := by
  rw [first, Attempt.take_eq, List.head?_take, if_neg Nat.one_ne_zero]

/-- Applied functions find what pairs find whose values are joined afterwards; a dropped
value counts as often as it is found. -/
theorem applicative_agrees (f : α × β → γ) (g : (α × β) × γ → δ) (p : Parser ε τ α)
    (q : Parser ε τ β) (r : Parser ε τ γ) (u : Parser ε τ (β → γ)) (v : Parser ε τ (α → β))
    (value : α) :
    (((pure (Function.curry f)).apply p).apply q).results = ((p.andThen q).map f).results ∧
    ((((pure (Function.curry (Function.curry g))).apply p).apply q).apply r).results =
      (((p.andThen q).andThen r).map g).results ∧
    (p.keepRight q).results = ((p.andThen q).map Prod.snd).results ∧
    (p.keepLeft q).results = ((p.andThen q).map Prod.fst).results ∧
    ((pure id).apply p).results = p.results ∧
    ((((pure fun g f => g ∘ f).apply u).apply v).apply p).results =
      (u.apply (v.apply p)).results ∧
    (v.apply (pure value)).results = ((pure fun f => f value).apply v).results ∧
    ∀ input : Input τ,
      (p.startComplete input).results = ((p.keepLeft eof).results input).map Match.value ∧
      (p.first input).results.head? =
        (((p.keepLeft eof).results input).map Match.value).head? := by
  refine ⟨(sameSearch_map2 f p q).results_eq, (sameSearch_map3 g p q r).results_eq,
    (sameSearch_keepRight p q).results_eq, (sameSearch_keepLeft p q).results_eq,
    (sameSearch_identity p).results_eq, (sameSearch_composition u v p).results_eq,
    (sameSearch_interchange v value).results_eq, ?_⟩
  intro input
  have hcomplete := results_startComplete_eq p input
  refine ⟨hcomplete, ?_⟩
  rw [head?_results_first, hcomplete]

end ScanParse.Parser
