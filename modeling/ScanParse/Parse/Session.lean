import ScanParse.Parse.Basic

/-!
One parser on several inputs, with any number of searches open at a time. A session holds what is
left of every search; a step changes at most one of them, and none of them changes the parser.
-/

namespace ScanParse

/-- A parser, the inputs at hand, and what is left of the searches opened so far. -/
structure Session (ε τ α : Type) where
  parser : Parser ε τ α
  inputs : Array (Input τ)
  cursors : Array (Unit → Run ε (Match τ α))

namespace Session

variable {ε τ α : Type}

inductive Step where
  /-- Starts a search on an input. -/
  | openInput (input : Nat)
  /-- Asks a search for its next result. -/
  | next (cursor : Nat)
  /-- Asks a search for all its results. -/
  | rest (cursor : Nat)
  /-- Looks for the first complete result on an input. -/
  | first (input : Nat)
  /-- Looks for all complete results on an input. -/
  | complete (input : Nat)

/-- The answers to them; `missing` where no such input or search exists. -/
inductive Answer (τ α : Type) where
  | opened (cursor : Nat)
  | next (found : Option (Match τ α))
  | rest (found : List (Match τ α))
  | first (value : Option α)
  | complete (values : List α)
  | missing

/-- A parser is described without looking into it. -/
def describeParser (_ : Parser ε τ α) : String :=
  "Parser \x7b .. \x7d"

/-- A session in which no search was opened. -/
def new (parser : Parser ε τ α) (inputs : List (Input τ)) : Session ε τ α :=
  ⟨parser, inputs.toArray, #[]⟩

/-- The answer to a step, what was logged, and the session after it. -/
def step (session : Session ε τ α) (request : Step) : Answer τ α × List ε × Session ε τ α :=
  match request with
  | .openInput i =>
      match session.inputs[i]? with
      | none => (.missing, [], session)
      | some input =>
          let attempt := session.parser.start input
          (.opened session.cursors.size, attempt.log,
            { session with cursors := session.cursors.push attempt.run })
  | .next k =>
      match session.cursors[k]? with
      | none => (.missing, [], session)
      | some run =>
          let pull := (run ()).pull
          (.next pull.answer, pull.log,
            { session with cursors := session.cursors.setIfInBounds k pull.rest })
  | .rest k =>
      match session.cursors[k]? with
      | none => (.missing, [], session)
      | some run =>
          let drained := (run ()).drain
          (.rest drained.results, drained.log,
            { session with cursors := session.cursors.setIfInBounds k fun _ => .done })
  | .first i =>
      match session.inputs[i]? with
      | none => (.missing, [], session)
      | some input =>
          let taken := session.parser.first input
          (.first taken.results.head?, taken.log, session)
  | .complete i =>
      match session.inputs[i]? with
      | none => (.missing, [], session)
      | some input =>
          let attempt := session.parser.startComplete input
          let drained := (attempt.run ()).drain
          (.complete drained.results, attempt.log ++ drained.log, session)

/-- The answers to a sequence of steps, each with what it logged. -/
def answers (session : Session ε τ α) : List Step → List (Answer τ α × List ε)
  | [] => []
  | request :: requests =>
      let (answer, log, after) := session.step request
      (answer, log) :: after.answers requests

end Session

end ScanParse
