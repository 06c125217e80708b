import Mathlib.Data.List.Perm.Basic
import Mathlib.Logic.Equiv.Prod
import ScanParse.Proofs.Parse.Denotation

namespace ScanParse

variable {ε τ α β γ δ : Type}

namespace Run

theorem append_bind (first : Run ε α) (second : Unit → Run ε α) (f : α → Run ε β) :
    (first.append second).bind f = (first.bind f).append fun _ => (second ()).bind f := by
  induction first with
  | done => rfl
  | note event rest ih => simp only [append, bind, ih]
  | result value rest ih => rw [append, bind_result, bind_result, append_assoc, ih]

theorem bind_assoc (run : Run ε α) (f : α → Run ε β) (g : β → Run ε γ) :
    (run.bind f).bind g = run.bind fun value => (f value).bind g := by
  induction run with
  | done => rfl
  | note event rest ih => simp only [bind, ih]
  | result value rest ih => rw [bind_result, append_bind, ih, bind_result]

theorem map_bind (g : β → γ) (run : Run ε α) (f : α → Run ε β) :
    (run.bind f).map g = run.bind fun value => (f value).map g := by
  induction run with
  | done => rfl
  | note event rest ih => simp only [bind, map, ih]
  | result value rest ih => rw [bind_result, map_append, ih, bind_result]

theorem bind_map (f : α → β) (run : Run ε α) (g : β → Run ε γ) :
    (run.map f).bind g = run.bind fun value => g (f value) := by
  induction run with
  | done => rfl
  | note event rest ih => simp only [map, bind, ih]
  | result value rest ih => rw [map, bind_result, bind_result, ih]

theorem ofList_singleton_bind (value : α) (f : α → Run ε β) :
    (ofList [value]).bind f = f value := by
  rw [ofList, bind_result]
  exact append_done (f value)

theorem bind_ofList_singleton (run : Run ε α) (f : α → β) :
    (run.bind fun value => ofList [f value]) = run.map f := by
  induction run with
  | done => rfl
  | note event rest ih => simp only [bind, map, ih]
  | result value rest ih =>
      rw [bind_result, ih]
      rfl

end Run

namespace Attempt

theorem toRun_append (first : Attempt ε α) (second : Unit → Attempt ε α) :
    (first.append second).toRun = first.toRun.append fun _ => (second ()).toRun :=
  (Run.append_notes first.log first.run _).symm

theorem append_assoc (first : Attempt ε α) (second third : Unit → Attempt ε α) :
    (first.append second).append third = first.append fun _ => (second ()).append third := by
  simp only [append, Run.append_assoc, ← toRun_append]

theorem append_bind (first : Attempt ε α) (second : Unit → Attempt ε α) (f : α → Attempt ε β) :
    (first.append second).bind f = (first.bind f).append fun _ => (second ()).bind f := by
  simp only [append, bind, Run.append_bind, toRun, Run.bind_notes]

theorem bind_assoc (attempt : Attempt ε α) (f : α → Attempt ε β) (g : β → Attempt ε γ) :
    (attempt.bind f).bind g = attempt.bind fun value => (f value).bind g := by
  simp only [bind, Run.bind_assoc, toRun, Run.bind_notes]

theorem map_bind (g : β → γ) (attempt : Attempt ε α) (f : α → Attempt ε β) :
    (attempt.bind f).map g = attempt.bind fun value => (f value).map g := by
  simp only [bind, map, Run.map_bind, toRun, Run.map_notes]

theorem bind_map (f : α → β) (attempt : Attempt ε α) (g : β → Attempt ε γ) :
    (attempt.map f).bind g = attempt.bind fun value => g (f value) := by
  simp only [bind, map, Run.bind_map]

theorem map_map (g : β → γ) (f : α → β) (attempt : Attempt ε α) :
    (attempt.map f).map g = attempt.map fun value => g (f value) := by
  simp only [map, Run.map_map]

end Attempt

namespace Parser

theorem andThen_assoc (p : Parser ε τ α) (q : Parser ε τ β) (r : Parser ε τ γ) :
    ((p.andThen q).andThen r).map (Equiv.prodAssoc α β γ) = p.andThen (q.andThen r) := by
  apply congrArg Parser.mk
  funext input
  simp only [andThen, Attempt.bind_assoc, Attempt.map_bind, Attempt.bind_map, Attempt.map_map]
  rfl

theorem orElse_assoc (p q r : Parser ε τ α) :
    (p.orElse q).orElse r = p.orElse (q.orElse r) := by
  apply congrArg Parser.mk
  funext input
  exact Attempt.append_assoc (p.start input) (fun _ => q.start input) fun _ => r.start input

theorem orElse_andThen (p q : Parser ε τ α) (r : Parser ε τ β) :
    (p.orElse q).andThen r = (p.andThen r).orElse (q.andThen r) := by
  apply congrArg Parser.mk
  funext input
  exact Attempt.append_bind (p.start input) (fun _ => q.start input) _

theorem results_pure_andThen (value : δ) (p : Parser ε τ α) (input : Input τ) :
    ((pure value).andThen p).results input = (p.map (Prod.mk value)).results input := by
  rw [results_andThen, results_pure, List.flatMap_singleton, results_map]

theorem results_andThen_pure (p : Parser ε τ α) (value : δ) (input : Input τ) :
    (p.andThen (pure value)).results input = (p.map (·, value)).results input := by
  rw [results_andThen, results_map, List.map_eq_flatMap]
  simp only [results_pure, List.map_singleton]
  rfl

theorem results_andThen_fail (p : Parser ε τ α) (input : Input τ) :
    (p.andThen (fail : Parser ε τ β)).results input = [] := by
  rw [results_andThen, List.flatMap_eq_nil_iff]
  intro found _
  rw [results_fail, List.map_nil]

theorem results_andThen_orElse_perm (p : Parser ε τ α) (q r : Parser ε τ β) (input : Input τ) :
    ((p.andThen (q.orElse r)).results input).Perm
      (((p.andThen q).orElse (p.andThen r)).results input) := by
  simp only [results_andThen, results_orElse, List.map_append]
  exact (List.flatMap_append_perm ..).symm

theorem results_andThen_orElse {p : Parser ε τ α} {input : Input τ}
    (h : (p.results input).length ≤ 1) (q r : Parser ε τ β) :
    (p.andThen (q.orElse r)).results input =
      ((p.andThen q).orElse (p.andThen r)).results input := by
  rw [results_orElse, results_andThen, results_andThen, results_andThen]
  match hresults : p.results input with
  | [] => rfl
  | [found] => simp only [List.flatMap_singleton, results_orElse, List.map_append]
  | _ :: _ :: _ => simp [hresults] at h

/-- The laws of sequence and choice. The first three are equations between parsers: both
sides log and give the same at the start and at every request. -/
theorem sequence_choice_laws (p p' p'' : Parser ε τ α) (q q' : Parser ε τ β)
    (r : Parser ε τ γ) (value : δ) :
    ((p.andThen q).andThen r).map (Equiv.prodAssoc α β γ) = p.andThen (q.andThen r) ∧
    (p.orElse p').orElse p'' = p.orElse (p'.orElse p'') ∧
    (p.orElse p').andThen q = (p.andThen q).orElse (p'.andThen q) ∧
    ∀ input : Input τ,
      (fail.orElse p).results input = p.results input ∧
      (p.orElse fail).results input = p.results input ∧
      ((fail : Parser ε τ α).andThen q).results input =
        (fail : Parser ε τ (α × β)).results input ∧
      (p.andThen (fail : Parser ε τ β)).results input =
        (fail : Parser ε τ (α × β)).results input ∧
      ((pure value).andThen p).results input = (p.map (Prod.mk value)).results input ∧
      (p.andThen (pure value)).results input = (p.map (·, value)).results input ∧
      ((p.andThen (q.orElse q')).results input).Perm
        (((p.andThen q).orElse (p.andThen q')).results input) ∧
      ((p.results input).length ≤ 1 →
        (p.andThen (q.orElse q')).results input =
          ((p.andThen q).orElse (p.andThen q')).results input) := by
  refine ⟨andThen_assoc p q r, orElse_assoc p p' p'', orElse_andThen p p' q, ?_⟩
  intro input
  refine ⟨?_, ?_, ?_, ?_, ?_, ?_, ?_, ?_⟩
  · rw [results_orElse, results_fail, List.nil_append]
  · rw [results_orElse, results_fail, List.append_nil]
  · rw [results_andThen, results_fail, results_fail, List.flatMap_nil]
  · rw [results_andThen_fail, results_fail]
  · exact results_pure_andThen value p input
  · exact results_andThen_pure p value input
  · exact results_andThen_orElse_perm p q q' input
  · intro h
    exact results_andThen_orElse h q q'

theorem sequence_choice_laws_single :
    ((token 'a' : Parser Unit Char Char).results (.ofList ['a', 'b'])).length ≤ 1 ∧
      ((token 'a' : Parser Unit Char Char).andThen ((token 'b').orElse (pure '-'))).results
          (.ofList ['a', 'b']) =
        (((token 'a' : Parser Unit Char Char).andThen (token 'b')).orElse
          ((token 'a').andThen (pure '-'))).results (.ofList ['a', 'b']) ∧
      ((token 'a' : Parser Unit Char Char).andThen ((token 'b').orElse (pure '-'))).results
          (.ofList ['a', 'b']) = [⟨('a', 'b'), .ofList []⟩, ⟨('a', '-'), .ofList ['b']⟩] := by
  obtain ⟨-, -, -, h⟩ := sequence_choice_laws (token 'a' : Parser Unit Char Char) fail fail
    (token 'b') (pure '-') eof ()
  obtain ⟨-, -, -, -, -, -, -, hsingle⟩ := h (.ofList ['a', 'b'])
  exact ⟨by decide, hsingle (by decide), rfl⟩

end Parser

end ScanParse
