import ScanParse.Parse.Basic

/-!
Every number of repetitions of a parser, longest first, down to none. The search keeps its own
stack: one level for each item matched so far, with the matches of the next item that were not tried
yet. A match that consumes nothing is not repeated, so the inputs on the stack shrink strictly and
the search ends: `work` bounds the steps that are left.
-/

namespace ScanParse

namespace Run

variable {ε α : Type}

/-- The number of steps of a run, where a result also counts for what it leads to. -/
def steps (cost : α → Nat) : Run ε α → Nat
  | done => 1
  | note _ rest => 1 + steps cost (rest ())
  | result value rest => 1 + cost value + steps cost (rest ())

end Run

namespace Repetition

variable {ε τ α : Type}

/-- One level of the stack: an input, and the matches of the parser there that were not tried
yet. -/
structure Level (ε τ α : Type) where
  input : Input τ
  untried : Unit → Run ε (Match τ α)

/-- A search for repetitions: the levels, deepest first, the items that led from each level to the
next, deepest first, and the events that starting the deepest level has still to log. -/
structure State (ε τ α : Type) where
  queued : List ε
  pending : List (Level ε τ α)
  matched : List α

/-- What one step of the search comes to. -/
inductive Step (ε τ α : Type) : Type where
  | ended
  | logged (event : ε) (next : State ε τ α)
  | silent (next : State ε τ α)
  | found (result : Match τ (List α)) (next : State ε τ α)

/-- The state after a step, unless the search has ended. -/
def Step.next? : Step ε τ α → Option (State ε τ α)
  | .ended => none
  | .logged _ next => some next
  | .silent next => some next
  | .found _ next => some next

/-- The search goes on at `input`, one level deeper. -/
def State.enter (parser : Parser ε τ α) (input : Input τ) (pending : List (Level ε τ α))
    (matched : List α) : State ε τ α :=
  let attempt := parser.start input
  ⟨attempt.log, ⟨input, attempt.run⟩ :: pending, matched⟩

def State.initial (parser : Parser ε τ α) (input : Input τ) : State ε τ α :=
  .enter parser input [] []

/-- One step: a level without matches gives the items that led to it and is left; a match that
consumes something is entered, and any other match is skipped. -/
def State.step (parser : Parser ε τ α) : State ε τ α → Step ε τ α
  | ⟨event :: queued, pending, matched⟩ => .logged event ⟨queued, pending, matched⟩
  | ⟨[], [], _⟩ => .ended
  | ⟨[], level :: pending, matched⟩ =>
      match level.untried () with
      | .done => .found ⟨matched.reverse, level.input⟩ ⟨[], pending, matched.tail⟩
      | .note event rest => .logged event ⟨[], ⟨level.input, rest⟩ :: pending, matched⟩
      | .result item rest =>
          let pending := ⟨level.input, rest⟩ :: pending
          if item.rest.size < level.input.size then
            .silent (.enter parser item.rest pending (item.value :: matched))
          else
            .silent ⟨[], pending, matched⟩

/-- The steps that a repetition takes from an input. -/
def work (parser : Parser ε τ α) (input : Input τ) : Nat :=
  let attempt := parser.start input
  attempt.log.length + (attempt.run ()).steps fun item =>
    if _h : item.rest.size < input.size then work parser item.rest else 0
termination_by input.size

/-- The steps that the untried matches of a level lead to. -/
def Level.work (parser : Parser ε τ α) (level : Level ε τ α) : Nat :=
  (level.untried ()).steps fun item =>
    if item.rest.size < level.input.size then Repetition.work parser item.rest else 0

/-- The steps that the untried matches of all levels lead to. -/
def pendingWork (parser : Parser ε τ α) : List (Level ε τ α) → Nat
  | [] => 0
  | level :: pending => level.work parser + pendingWork parser pending

/-- The steps that are left of a search. -/
def State.work (parser : Parser ε τ α) (state : State ε τ α) : Nat :=
  state.queued.length + pendingWork parser state.pending

theorem work_eq (parser : Parser ε τ α) (input : Input τ) :
    work parser input =
      (parser.start input).log.length + Level.work parser ⟨input, (parser.start input).run⟩ := by
  rw [work]
  simp [Level.work]

theorem work_enter (parser : Parser ε τ α) (input : Input τ) (pending : List (Level ε τ α))
    (matched : List α) :
    (State.enter parser input pending matched).work parser =
      work parser input + pendingWork parser pending := by
  simp [State.enter, State.work, pendingWork, work_eq, Nat.add_assoc]

theorem work_step {parser : Parser ε τ α} {state next : State ε τ α}
    (h : (state.step parser).next? = some next) : next.work parser < state.work parser := by
  obtain ⟨queued, pending, matched⟩ := state
  match queued, pending with
  | event :: queued, pending =>
      obtain rfl : _ = next := by simpa [State.step, Step.next?] using h
      simp [State.work]
  | [], [] => simp [State.step, Step.next?] at h
  | [], level :: pending =>
      cases hrun : level.untried () with
      | done =>
          obtain rfl : _ = next := by simpa [State.step, Step.next?, hrun] using h
          simp [State.work, pendingWork, Level.work, hrun, Run.steps]
      | note event rest =>
          obtain rfl : _ = next := by simpa [State.step, Step.next?, hrun] using h
          simp [State.work, pendingWork, Level.work, hrun, Run.steps]
      | result item rest =>
          by_cases hshort : item.rest.size < level.input.size
          · obtain rfl : _ = next := by simpa [State.step, Step.next?, hrun, hshort] using h
            rw [work_enter]
            simp only [State.work, pendingWork, Level.work, hrun, Run.steps, hshort,
              if_true, List.length_nil]
            omega
          · obtain rfl : _ = next := by simpa [State.step, Step.next?, hrun, hshort] using h
            simp only [State.work, pendingWork, Level.work, hrun, Run.steps, hshort,
              if_false, List.length_nil]
            omega

def State.run (parser : Parser ε τ α) (state : State ε τ α) : Run ε (Match τ (List α)) :=
  match _h : state.step parser with
  | .ended => .done
  | .logged event next => .note event fun _ => run parser next
  | .silent next => run parser next
  | .found result next => .result result fun _ => run parser next
termination_by state.work parser
decreasing_by all_goals exact work_step (by simp [*, Step.next?])

theorem run_of_ended {parser : Parser ε τ α} {state : State ε τ α}
    (h : state.step parser = .ended) : state.run parser = .done := by
  rw [State.run]
  split <;> simp_all

theorem run_of_logged {parser : Parser ε τ α} {state next : State ε τ α} {event : ε}
    (h : state.step parser = .logged event next) :
    state.run parser = .note event fun _ => next.run parser := by
  rw [State.run]
  split <;> simp_all

theorem run_of_silent {parser : Parser ε τ α} {state next : State ε τ α}
    (h : state.step parser = .silent next) : state.run parser = next.run parser := by
  rw [State.run]
  split <;> simp_all

theorem run_of_found {parser : Parser ε τ α} {state next : State ε τ α}
    {result : Match τ (List α)} (h : state.step parser = .found result next) :
    state.run parser = .result result fun _ => next.run parser := by
  rw [State.run]
  split <;> simp_all

end Repetition

namespace Parser

variable {ε τ α : Type}

/-- Every number of repetitions, longest first, down to the empty list. Where the parser does not
match, the empty list is the only result. -/
def many (parser : Parser ε τ α) : Parser ε τ (List α) :=
  ⟨fun input =>
    let state := Repetition.State.initial parser input
    ⟨state.queued, fun _ => { state with queued := [] }.run parser⟩⟩

/-- Like `many`, but the parser has to match once; that first match may consume nothing. -/
def many1 (parser : Parser ε τ α) : Parser ε τ (List α) :=
  map2 List.cons parser parser.many

end Parser

end ScanParse
