/-!
What is left of a search, as a value: a lazy sequence of the events that it logs and the results
that it gives, in the order in which they happen. A run has a last element, so every function on
runs is a structural recursion; its tails are functions, so nothing behind the next result is
computed before somebody asks for it.

The two views of a run are `results` and `log`.
-/

namespace ScanParse

/-- A finite search whose steps log events of type `ε` and give results of type `α`. -/
inductive Run (ε α : Type) : Type where
  /-- The search has ended. -/
  | done
  /-- The search logs an event and goes on. -/
  | note (event : ε) (rest : Unit → Run ε α)
  /-- The search gives a result and goes on when it is asked for the next one. -/
  | result (value : α) (rest : Unit → Run ε α)

/-- What one request for a result gives: the events logged on the way, the answer, and the run
that is left. -/
structure Pull (ε α : Type) where
  log : List ε
  answer : Option α
  rest : Unit → Run ε α

/-- What a bounded number of requests gives: the answers, whether the end was seen, and the events
logged. -/
structure Taken (ε α : Type) where
  results : List α
  ended : Bool
  log : List ε

namespace Run

variable {ε α β γ : Type}

/-- All results of a run, in order. -/
def results : Run ε α → List α
  | done => []
  | note _ rest => results (rest ())
  | result value rest => value :: results (rest ())

/-- All events of a run, in order. -/
def log : Run ε α → List ε
  | done => []
  | note event rest => event :: log (rest ())
  | result _ rest => log (rest ())

/-- The silent run that gives the listed results. -/
def ofList : List α → Run ε α
  | [] => done
  | value :: values => result value fun _ => ofList values

/-- Logs the listed events before the run. -/
def notes : List ε → (Unit → Run ε α) → Run ε α
  | [], run => run ()
  | event :: events, run => note event fun _ => notes events run

/-- One run, and after its end another. -/
def append (first : Run ε α) (second : Unit → Run ε α) : Run ε α :=
  match first with
  | done => second ()
  | note event rest => note event fun _ => append (rest ()) second
  | result value rest => result value fun _ => append (rest ()) second

def map (f : α → β) : Run ε α → Run ε β
  | done => done
  | note event rest => note event fun _ => map f (rest ())
  | result value rest => result (f value) fun _ => map f (rest ())

/-- Logs an event for every result, just before giving it. -/
def tap (event : α → ε) : Run ε α → Run ε α
  | done => done
  | note e rest => note e fun _ => tap event (rest ())
  | result value rest => note (event value) fun _ => result value fun _ => tap event (rest ())

/-- Ends behind the first event that stops the search. -/
def stopAt (stops : ε → Bool) : Run ε α → Run ε α
  | done => done
  | note event rest => note event fun _ => if stops event then done else stopAt stops (rest ())
  | result value rest => result value fun _ => stopAt stops (rest ())

/-- Keeps the results to which a function gives a value. -/
def filterMap (f : α → Option β) : Run ε α → Run ε β
  | done => done
  | note event rest => note event fun _ => filterMap f (rest ())
  | result value rest =>
      match f value with
      | none => filterMap f (rest ())
      | some image => result image fun _ => filterMap f (rest ())

/-- Runs the search `f value` at every result; the next result is not asked for before that inner
search has ended. The three cases of the inner search only spare the stack (`bind_result`). -/
def bind (run : Run ε α) (f : α → Run ε β) : Run ε β :=
  match run with
  | done => done
  | note event rest => note event fun _ => bind (rest ()) f
  | result value rest =>
      match f value with
      | done => bind (rest ()) f
      | note event inner => note event fun _ => append (inner ()) fun _ => bind (rest ()) f
      | result image inner => result image fun _ => append (inner ()) fun _ => bind (rest ()) f

/-- Asks a run for a result when the events in `seen`, last first, were logged on the way. -/
def pullAfter (seen : List ε) : Run ε α → Pull ε α
  | done => ⟨seen.reverse, none, fun _ => done⟩
  | note event rest => pullAfter (event :: seen) (rest ())
  | result value rest => ⟨seen.reverse, some value, rest⟩

/-- Asks a run for its next result. -/
def pull (run : Run ε α) : Pull ε α :=
  run.pullAfter []

/-- Asks for `count` more results, stopping at the end; `logs` and `found` hold, last first, what
came before. -/
def takeAfter (logs : List (List ε)) (found : List α) :
    Nat → (Unit → Run ε α) → Taken ε α
  | 0, _ => ⟨found.reverse, false, logs.reverse.flatten⟩
  | count + 1, run =>
      let next := (run ()).pull
      match next.answer with
      | none => ⟨found.reverse, true, (next.log :: logs).reverse.flatten⟩
      | some value => takeAfter (next.log :: logs) (value :: found) count next.rest

/-- Everything that is left of a run, results and events; `logs` and `found` hold, last first, what
came before. -/
def drainAfter (seen : List ε) (found : List α) : Run ε α → Taken ε α
  | done => ⟨found.reverse, true, seen.reverse⟩
  | note event rest => drainAfter (event :: seen) found (rest ())
  | result value rest => drainAfter seen (value :: found) (rest ())

def drain (run : Run ε α) : Taken ε α :=
  run.drainAfter [] []

@[simp] theorem results_ofList (values : List α) :
    (ofList values : Run ε α).results = values := by
  induction values with
  | nil => rfl
  | cons value values ih => simp [ofList, results, ih]

@[simp] theorem results_notes (events : List ε) (run : Unit → Run ε α) :
    (notes events run).results = (run ()).results := by
  induction events with
  | nil => rfl
  | cons event events ih => simp [notes, results, ih]

@[simp] theorem log_notes (events : List ε) (run : Unit → Run ε α) :
    (notes events run).log = events ++ (run ()).log := by
  induction events with
  | nil => rfl
  | cons event events ih => simp [notes, log, ih]

@[simp] theorem results_append (first : Run ε α) (second : Unit → Run ε α) :
    (first.append second).results = first.results ++ (second ()).results := by
  induction first with
  | done => rfl
  | note event rest ih => simp [append, results, ih]
  | result value rest ih => simp [append, results, ih]

@[simp] theorem log_append (first : Run ε α) (second : Unit → Run ε α) :
    (first.append second).log = first.log ++ (second ()).log := by
  induction first with
  | done => rfl
  | note event rest ih => simp [append, log, ih]
  | result value rest ih => simp [append, log, ih]

@[simp] theorem results_map (f : α → β) (run : Run ε α) :
    (run.map f).results = run.results.map f := by
  induction run with
  | done => rfl
  | note event rest ih => simp [map, results, ih]
  | result value rest ih => simp [map, results, ih]

@[simp] theorem log_map (f : α → β) (run : Run ε α) : (run.map f).log = run.log := by
  induction run with
  | done => rfl
  | note event rest ih => simp [map, log, ih]
  | result value rest ih => simp [map, log, ih]

@[simp] theorem results_tap (event : α → ε) (run : Run ε α) :
    (run.tap event).results = run.results := by
  induction run with
  | done => rfl
  | note event rest ih => simp [tap, results, ih]
  | result value rest ih => simp [tap, results, ih]

theorem stopAt_eq_self {stops : ε → Bool} {run : Run ε α}
    (h : ∀ event ∈ run.log, stops event = false) : run.stopAt stops = run := by
  induction run with
  | done => rfl
  | note event rest ih =>
      have hevent : stops event = false := h event (by simp [log])
      have hrest := ih () fun later hlater => h later (by simp [log, hlater])
      simp [stopAt, hevent, hrest]
  | result value rest ih =>
      have hrest := ih () fun later hlater => h later (by simpa [log] using hlater)
      simp [stopAt, hrest]

@[simp] theorem results_filterMap (f : α → Option β) (run : Run ε α) :
    (run.filterMap f).results = run.results.filterMap f := by
  induction run with
  | done => rfl
  | note event rest ih => simp [filterMap, results, ih]
  | result value rest ih =>
      cases h : f value <;> simp [filterMap, results, h, ih]

theorem bind_result (value : α) (rest : Unit → Run ε α) (f : α → Run ε β) :
    bind (result value rest) f = append (f value) fun _ => bind (rest ()) f := by
  cases h : f value <;> simp [bind, append, h]

@[simp] theorem results_bind (run : Run ε α) (f : α → Run ε β) :
    (run.bind f).results = run.results.flatMap fun value => (f value).results := by
  induction run with
  | done => rfl
  | note event rest ih => simp [bind, results, ih]
  | result value rest ih => simp [bind_result, results, ih]

@[simp] theorem map_notes (f : α → β) (events : List ε) (run : Unit → Run ε α) :
    (notes events run).map f = notes events fun _ => (run ()).map f := by
  induction events with
  | nil => rfl
  | cons event events ih => simp [notes, map, ih]

@[simp] theorem tap_notes (event : α → ε) (events : List ε) (run : Unit → Run ε α) :
    (notes events run).tap event = notes events fun _ => (run ()).tap event := by
  induction events with
  | nil => rfl
  | cons first events ih => simp [notes, tap, ih]

@[simp] theorem append_notes (events : List ε) (run second : Unit → Run ε α) :
    (notes events run).append second = notes events fun _ => (run ()).append second := by
  induction events with
  | nil => rfl
  | cons event events ih => simp [notes, append, ih]

@[simp] theorem bind_notes (events : List ε) (run : Unit → Run ε α) (f : α → Run ε β) :
    (notes events run).bind f = notes events fun _ => (run ()).bind f := by
  induction events with
  | nil => rfl
  | cons event events ih => simp [notes, bind, ih]

theorem notes_append (events later : List ε) (run : Unit → Run ε α) :
    notes (events ++ later) run = notes events fun _ => notes later run := by
  induction events with
  | nil => rfl
  | cons event events ih => simp [notes, ih]

@[simp] theorem map_map (g : β → γ) (f : α → β) (run : Run ε α) :
    (run.map f).map g = run.map fun value => g (f value) := by
  induction run with
  | done => rfl
  | note event rest ih => simp [map, ih]
  | result value rest ih => simp [map, ih]

@[simp] theorem map_id (run : Run ε α) : run.map id = run := by
  induction run with
  | done => rfl
  | note event rest ih => simp [map, ih]
  | result value rest ih => simp [map, ih]

@[simp] theorem map_append (f : α → β) (first : Run ε α) (second : Unit → Run ε α) :
    (first.append second).map f = (first.map f).append fun _ => (second ()).map f := by
  induction first with
  | done => rfl
  | note event rest ih => simp [append, map, ih]
  | result value rest ih => simp [append, map, ih]

@[simp] theorem append_done (run : Run ε α) : (run.append fun _ => done) = run := by
  induction run with
  | done => rfl
  | note event rest ih => simp [append, ih]
  | result value rest ih => simp [append, ih]

@[simp] theorem append_assoc (first : Run ε α) (second third : Unit → Run ε α) :
    (first.append second).append third = first.append fun _ => (second ()).append third := by
  induction first with
  | done => rfl
  | note event rest ih => simp [append, ih]
  | result value rest ih => simp [append, ih]

theorem pullAfter_eq (seen : List ε) (run : Run ε α) :
    run.pullAfter seen = { run.pull with log := seen.reverse ++ run.pull.log } := by
  induction run generalizing seen with
  | done => simp [pullAfter, pull]
  | note event rest ih =>
      simp only [pull, pullAfter]
      rw [ih, ih () [event]]
      simp
  | result value rest ih => simp [pullAfter, pull]

@[simp] theorem pull_done : (done : Run ε α).pull = ⟨[], none, fun _ => done⟩ := rfl

@[simp] theorem pull_note (event : ε) (rest : Unit → Run ε α) :
    (note event rest).pull = { (rest ()).pull with log := event :: (rest ()).pull.log } := by
  simp only [pull, pullAfter]
  rw [pullAfter_eq]
  simp [pull]

@[simp] theorem pull_result (value : α) (rest : Unit → Run ε α) :
    (result value rest).pull = ⟨[], some value, rest⟩ := rfl

theorem drainAfter_eq (seen : List ε) (found : List α) (run : Run ε α) :
    run.drainAfter seen found = ⟨found.reverse ++ run.results, true, seen.reverse ++ run.log⟩ := by
  induction run generalizing seen found with
  | done => simp [drainAfter, results, log]
  | note event rest ih => simp [drainAfter, results, log, ih]
  | result value rest ih => simp [drainAfter, results, log, ih]

/-- Asking until the end gives all results and all events. -/
theorem drain_eq (run : Run ε α) : run.drain = ⟨run.results, true, run.log⟩ := by
  simp [drain, drainAfter_eq]

end Run

/-- What starting a search gives: the events logged at once, and the run that is left for the
requests to come. The run is not looked at before the first request. -/
structure Attempt (ε α : Type) where
  log : List ε
  run : Unit → Run ε α

namespace Attempt

variable {ε α β : Type}

/-- The silent attempt that gives the listed results. -/
def ofList (values : List α) : Attempt ε α :=
  ⟨[], fun _ => .ofList values⟩

/-- An attempt that is started within a run logs there. -/
def toRun (attempt : Attempt ε α) : Run ε α :=
  .notes attempt.log attempt.run

/-- All results of an attempt, in order. -/
def results (attempt : Attempt ε α) : List α :=
  (attempt.run ()).results

def map (f : α → β) (attempt : Attempt ε α) : Attempt ε β :=
  ⟨attempt.log, fun _ => (attempt.run ()).map f⟩

def tap (event : α → ε) (attempt : Attempt ε α) : Attempt ε α :=
  ⟨attempt.log, fun _ => (attempt.run ()).tap event⟩

/-- Keeps the results to which a function gives a value. -/
def filterMap (f : α → Option β) (attempt : Attempt ε α) : Attempt ε β :=
  ⟨attempt.log, fun _ => (attempt.run ()).filterMap f⟩

/-- Ends behind the first event that stops the search. -/
def stopAt (stops : ε → Bool) (attempt : Attempt ε α) : Attempt ε α :=
  ⟨attempt.log, fun _ =>
    if attempt.log.any stops then .done else (attempt.run ()).stopAt stops⟩

/-- Starts an attempt at every result of an attempt. -/
def bind (attempt : Attempt ε α) (f : α → Attempt ε β) : Attempt ε β :=
  ⟨attempt.log, fun _ => (attempt.run ()).bind fun value => (f value).toRun⟩

/-- One attempt, and after its end another, which is not started before. -/
def append (first : Attempt ε α) (second : Unit → Attempt ε α) : Attempt ε α :=
  ⟨first.log, fun _ => (first.run ()).append fun _ => (second ()).toRun⟩

/-- At most `count` results of an attempt, with the events of its start. -/
def take (count : Nat) (attempt : Attempt ε α) : Taken ε α :=
  Run.takeAfter [attempt.log] [] count attempt.run

@[simp] theorem results_ofList (values : List α) :
    (ofList values : Attempt ε α).results = values := by
  simp [ofList, results]

@[simp] theorem results_toRun (attempt : Attempt ε α) :
    attempt.toRun.results = attempt.results := by
  simp [toRun, results]

@[simp] theorem results_map (f : α → β) (attempt : Attempt ε α) :
    (attempt.map f).results = attempt.results.map f := by
  simp [map, results]

@[simp] theorem results_tap (event : α → ε) (attempt : Attempt ε α) :
    (attempt.tap event).results = attempt.results := by
  simp [tap, results]

@[simp] theorem results_filterMap (f : α → Option β) (attempt : Attempt ε α) :
    (attempt.filterMap f).results = attempt.results.filterMap f := by
  simp [filterMap, results]

@[simp] theorem results_bind (attempt : Attempt ε α) (f : α → Attempt ε β) :
    (attempt.bind f).results = attempt.results.flatMap fun value => (f value).results := by
  simp [bind, results, toRun]

@[simp] theorem results_append (first : Attempt ε α) (second : Unit → Attempt ε α) :
    (first.append second).results = first.results ++ (second ()).results := by
  simp [append, results, toRun]

theorem toRun_bind (attempt : Attempt ε α) (f : α → Attempt ε β) :
    (attempt.bind f).toRun = attempt.toRun.bind fun value => (f value).toRun := by
  simp [toRun, bind]

end Attempt

end ScanParse
