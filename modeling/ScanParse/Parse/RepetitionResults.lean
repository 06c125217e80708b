import ScanParse.Parse.Repetition

namespace ScanParse

namespace Repetition

variable {ε τ α : Type}

/-- Puts items in front of the list of a match. -/
def prepend (items : List α) (found : Match τ (List α)) : Match τ (List α) :=
  found.map (items ++ ·)

/-- The results that start with an untried match of a level: the match, where it consumes something,
followed by any repetition behind it. -/
def Level.results (parser : Parser ε τ α) (level : Level ε τ α) : List (Match τ (List α)) :=
  (level.untried ()).results.flatMap fun item =>
    if item.rest.size < level.input.size then
      (parser.many.results item.rest).map (prepend [item.value])
    else []

/-- The results of a stack: level by level, those that go on and then the one that stops there. -/
def stackResults (parser : Parser ε τ α) : List (Level ε τ α) → List α → List (Match τ (List α))
  | [], _ => []
  | level :: pending, matched =>
      (level.results parser).map (prepend matched.reverse) ++
        ⟨matched.reverse, level.input⟩ :: stackResults parser pending matched.tail

@[simp] theorem prepend_nil : (prepend [] : Match τ (List α) → Match τ (List α)) = id := by
  funext found
  rfl

theorem prepend_singleton (item : α) :
    (prepend [item] : Match τ (List α) → Match τ (List α)) = Match.map (item :: ·) := rfl

theorem prepend_prepend (items later : List α) (found : Match τ (List α)) :
    prepend items (prepend later found) = prepend (items ++ later) found := by
  simp [prepend, Match.map]

theorem prepend_mk (items values : List α) (rest : Input τ) :
    prepend items ⟨values, rest⟩ = ⟨items ++ values, rest⟩ := rfl

/-- Behind a match that consumes something, all repetitions from there. -/
def further (p : Parser ε τ α) (input : Input τ) (item : Match τ α) : Run ε (Match τ (List α)) :=
  if item.rest.size < input.size then
    (p.many.start item.rest).toRun.map (prepend [item.value])
  else .done

theorem results_further (p : Parser ε τ α) (input : Input τ) (item : Match τ α) :
    (further p input item).results =
      if item.rest.size < input.size then (p.many.results item.rest).map (prepend [item.value])
      else [] := by
  unfold further
  split
  · simp [Parser.results]
  · rfl

theorem run_queued (p : Parser ε τ α) (queued : List ε) (pending : List (Level ε τ α))
    (matched : List α) :
    State.run p ⟨queued, pending, matched⟩ =
      .notes queued fun _ => State.run p ⟨[], pending, matched⟩ := by
  induction queued with
  | nil => rfl
  | cons event queued ih =>
      rw [run_of_logged (State.step.eq_1 ..), ih]
      rfl

theorem run_nil (p : Parser ε τ α) (matched : List α) :
    State.run p ⟨[], [], matched⟩ = .done :=
  run_of_ended rfl

theorem run_of_shorter (p : Parser ε τ α) {input : Input τ} {item : Match τ α}
    {rest : Unit → Run ε (Match τ α)} (pending : List (Level ε τ α)) (matched : List α)
    (h : item.rest.size < input.size) :
    State.run p ⟨[], ⟨input, fun _ => .result item rest⟩ :: pending, matched⟩ =
      (State.enter p item.rest (⟨input, rest⟩ :: pending) (item.value :: matched)).run p :=
  run_of_silent (by simp [State.step, h])

theorem run_of_not_shorter (p : Parser ε τ α) {input : Input τ} {item : Match τ α}
    {rest : Unit → Run ε (Match τ α)} (pending : List (Level ε τ α)) (matched : List α)
    (h : ¬item.rest.size < input.size) :
    State.run p ⟨[], ⟨input, fun _ => .result item rest⟩ :: pending, matched⟩ =
      State.run p ⟨[], ⟨input, rest⟩ :: pending, matched⟩ :=
  run_of_silent (by simp [State.step, h])

theorem toRun_many_eq_run (p : Parser ε τ α) (input : Input τ) :
    (p.many.start input).toRun = (State.initial p input).run p :=
  (run_queued p ..).symm

theorem run_level (p : Parser ε τ α) (input : Input τ) (untried : Run ε (Match τ α))
    (pending : List (Level ε τ α)) (matched : List α) :
    State.run p ⟨[], ⟨input, fun _ => untried⟩ :: pending, matched⟩ =
      ((untried.bind (further p input)).map (prepend matched.reverse)).append fun _ =>
        .result ⟨matched.reverse, input⟩ fun _ => State.run p ⟨[], pending, matched.tail⟩ := by
  induction hsize : input.size using Nat.strongRecOn generalizing input untried pending matched with
  | _ size ih =>
      subst hsize
      induction untried with
      | done => exact run_of_found (by simp [State.step])
      | note event rest ihrest =>
          rw [run_of_logged (by simp [State.step]; exact ⟨rfl, rfl⟩), ihrest ()]
          rfl
      | result item rest ihrest =>
          by_cases hshort : item.rest.size < input.size
          · -- The level that is entered, over any levels below it.
            have henter : ∀ (pending : List (Level ε τ α)) (matched : List α),
                (State.enter p item.rest pending matched).run p =
                  .notes (p.start item.rest).log fun _ =>
                    ((((p.start item.rest).run ()).bind (further p item.rest)).map
                      (prepend matched.reverse)).append fun _ =>
                        .result ⟨matched.reverse, item.rest⟩ fun _ =>
                          State.run p ⟨[], pending, matched.tail⟩ := by
              intro pending matched
              rw [State.enter, run_queued]
              exact congrArg _ (funext fun _ =>
                ih _ hshort item.rest ((p.start item.rest).run ()) pending matched rfl)
            have hrest : State.run p ⟨[], ⟨input, rest⟩ :: pending, matched⟩ = _ := ihrest ()
            rw [run_of_shorter p pending matched hshort, henter, Run.bind_result, further,
              if_pos hshort, toRun_many_eq_run, State.initial, henter]
            simp [hrest, prepend_prepend, prepend_mk, Run.append, Run.map, run_nil]
          · rw [run_of_not_shorter p pending matched hshort, Run.bind_result, further,
              if_neg hshort]
            exact ihrest ()

theorem results_run (parser : Parser ε τ α) (state : State ε τ α) :
    (state.run parser).results = stackResults parser state.pending state.matched := by
  obtain ⟨queued, pending, matched⟩ := state
  rw [run_queued, Run.results_notes]
  induction pending generalizing matched with
  | nil =>
      rw [run_nil]
      rfl
  | cons level pending ih =>
      refine (congrArg Run.results (run_level parser level.input (level.untried ()) ..)).trans ?_
      simp [stackResults, Level.results, Run.results, results_further, ih]

end Repetition

namespace Parser

variable {ε τ α : Type}

open Repetition

/-- What the parser logs and finds, each match replaced by all repetitions behind it if it consumes
something, and last the empty list. -/
theorem toRun_many (p : Parser ε τ α) (input : Input τ) :
    (p.many.start input).toRun =
      ((p.start input).toRun.bind (further p input)).append fun _ =>
        .result ⟨[], input⟩ fun _ => .done := by
  rw [toRun_many_eq_run, State.initial, State.enter, run_queued]
  simp only [Attempt.toRun, Run.bind_notes, Run.append_notes]
  refine congrArg _ (funext fun _ => ?_)
  refine (run_level p input ((p.start input).run ()) [] []).trans ?_
  simp [run_nil]

theorem results_many_eq_stack (parser : Parser ε τ α) (input : Input τ) :
    parser.many.results input = stackResults parser [⟨input, (parser.start input).run⟩] [] :=
  results_run parser ⟨[], [⟨input, (parser.start input).run⟩], []⟩

/-- At every match that consumes something, that match in front of any repetition behind it, and
last the empty list. -/
theorem results_many (parser : Parser ε τ α) (input : Input τ) :
    parser.many.results input =
      ((parser.results input).flatMap fun item =>
        if item.rest.size < input.size then
          (parser.many.results item.rest).map (Match.map (item.value :: ·))
        else []) ++ [⟨[], input⟩] := by
  rw [results_many_eq_stack]
  simp [stackResults, Level.results, prepend_singleton, results, Attempt.results]

theorem results_many1 (parser : Parser ε τ α) (input : Input τ) :
    parser.many1.results input =
      (parser.results input).flatMap fun item =>
        (parser.many.results item.rest).map (Match.map (item.value :: ·)) := by
  simp [many1, map2, Match.map, List.flatMap_map]

end Parser

end ScanParse
