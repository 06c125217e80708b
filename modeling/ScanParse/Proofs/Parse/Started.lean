import ScanParse.Proofs.Parse.Expression
import ScanParse.Proofs.Parse.Iterator

namespace ScanParse

variable {ε τ ι α β : Type} {ρ : ι → Type}

/-- A search that was started: the events logged at once, an iterator over the results, and its
state. -/
structure Started (ε α : Type) : Type 1 where
  log : List ε
  iterator : Iterator ε α
  state : iterator.State

namespace Iterator

/-- Logs and gives what a run says. -/
def ofRun (ε α : Type) : Iterator ε α where
  State := Run ε α
  step
    | .done => .ended .done
    | .note event rest => .logged event (rest ())
    | .result value rest => .found value (rest ())

/-- Applies a function to every value. The state is that of the inner iterator, which is asked
again behind its end. -/
def map (f : α → β) (it : Iterator.{0} ε α) : Iterator.{0} ε β where
  State := it.State
  step state := (it.step state).within id .ended fun value next => .found (f value) next

/-- Logs an event for every value, just before giving it. -/
def tap (event : α → ε) (it : Iterator.{0} ε α) : Iterator ε α where
  State := Option α × it.State
  step
    | (some value, state) => .found value (none, state)
    | (none, state) =>
        (it.step state).within (none, ·) (fun left => .ended (none, left)) fun value next =>
          .logged (event value) (some value, next)

/-- The inner iterator of a nested search, behind the outer value with which it was started; the
events of its start may still be to log. -/
structure Front (f : α → Started ε β) where
  value : α
  queued : List ε
  state : (f value).iterator.State

/-- Starts a search at every value, and gives what it gives. The outer iterator is dropped at its
end, and so is each inner one. -/
def flatMap (it : Iterator ε α) (f : α → Started ε β) : Iterator ε β where
  State := Option it.State × Option (Front f)
  step
    | (outer, some ⟨value, event :: queued, state⟩) =>
        .logged event (outer, some ⟨value, queued, state⟩)
    | (outer, some ⟨value, [], state⟩) =>
        ((f value).iterator.step state).within (fun next => (outer, some ⟨value, [], next⟩))
          (fun _ => .silent (outer, none)) fun image next =>
            .found image (outer, some ⟨value, [], next⟩)
    | (some state, none) =>
        (it.step state).within (fun next => (some next, none)) (fun _ => .ended (none, none))
          fun value next => .silent (some next, some ⟨value, (f value).log, (f value).state⟩)
    | (none, none) => .ended (none, none)

/-- One iterator, and behind its end another. The first one is dropped at its end, the second one
is asked again. -/
def chain (first second : Iterator.{0} ε α) : Iterator ε α where
  State := Option first.State × second.State
  step
    | (some state, later) =>
        (first.step state).within (fun next => (some next, later))
          (fun _ => .silent (none, later)) fun value next => .found value (some next, later)
    | (none, state) =>
        (second.step state).within (none, ·) (fun left => .ended (none, left)) fun value next =>
          .found value (none, next)

/-- The stacks of a repetition: the levels, deepest first, each an input and the state of the
search there, and the items matched so far. -/
structure Stacks (search : Input τ → Started ε (Match τ α)) where
  queued : List ε
  pending : List ((input : Input τ) × (search input).iterator.State)
  matched : List α

/-- Every number of repetitions, from stacks; with nothing on the stack there is no other one. -/
def repetitions (search : Input τ → Started ε (Match τ α)) :
    Iterator ε (Match τ (List α)) where
  State := Stacks search
  step
    | ⟨event :: queued, pending, matched⟩ => .logged event ⟨queued, pending, matched⟩
    | ⟨[], [], matched⟩ => .ended ⟨[], [], matched⟩
    | ⟨[], ⟨input, state⟩ :: pending, matched⟩ =>
        ((search input).iterator.step state).within
          (fun next => ⟨[], ⟨input, next⟩ :: pending, matched⟩)
          (fun _ => .found ⟨matched.reverse, input⟩ ⟨[], pending, matched.tail⟩) fun item next =>
            if item.rest.size < input.size then
              .silent ⟨(search item.rest).log,
                ⟨item.rest, (search item.rest).state⟩ :: ⟨input, next⟩ :: pending,
                item.value :: matched⟩
            else .silent ⟨[], ⟨input, next⟩ :: pending, matched⟩

section Final

variable {it : Iterator ε α}

theorem final_ofRun : (ofRun ε α).Final := by
  intro state left h
  cases state with
  | done =>
      cases h
      rfl
  | note event rest => cases h
  | result value rest => cases h

theorem Final.map (f : α → β) (h : it.Final) : (it.map f).Final := by
  intro state left hstep
  obtain ⟨inner, hinner, hleft⟩ :=
    IteratorStep.exists_of_within_eq_ended hstep fun _ _ => nofun
  cases hleft
  exact congrArg (·.within id .ended fun value next => .found (f value) next) (h hinner)

theorem Final.tap (event : α → ε) (h : it.Final) : (it.tap event).Final := by
  rintro ⟨held, state⟩ left hstep
  cases held with
  | some value => cases hstep
  | none =>
      obtain ⟨inner, hinner, hleft⟩ :=
        IteratorStep.exists_of_within_eq_ended hstep fun _ _ => nofun
      cases hleft
      simp only [Iterator.tap, h hinner]
      rfl

theorem Final.chain {first second : Iterator ε α} (h : second.Final) :
    (first.chain second).Final := by
  rintro ⟨current, state⟩ left hstep
  cases current with
  | some current =>
      obtain ⟨inner, -, hleft⟩ :=
        IteratorStep.exists_of_within_eq_ended hstep fun _ _ => nofun
      cases hleft
  | none =>
      obtain ⟨inner, hinner, hleft⟩ :=
        IteratorStep.exists_of_within_eq_ended hstep fun _ _ => nofun
      cases hleft
      simp only [Iterator.chain, h hinner]
      rfl

theorem final_flatMap (it : Iterator ε α) (f : α → Started ε β) : (it.flatMap f).Final := by
  rintro ⟨outer, front⟩ left hstep
  match outer, front with
  | outer, some ⟨value, event :: queued, state⟩ => cases hstep
  | outer, some ⟨value, [], state⟩ =>
      obtain ⟨inner, -, hleft⟩ :=
        IteratorStep.exists_of_within_eq_ended hstep fun _ _ => nofun
      cases hleft
  | some state, none =>
      obtain ⟨inner, -, hleft⟩ :=
        IteratorStep.exists_of_within_eq_ended hstep fun _ _ => nofun
      cases hleft
      rfl
  | none, none =>
      cases hstep
      rfl

theorem final_repetitions (search : Input τ → Started ε (Match τ α)) :
    (repetitions search).Final := by
  rintro ⟨queued, pending, matched⟩ left hstep
  match queued, pending with
  | event :: queued, pending => cases hstep
  | [], [] =>
      cases hstep
      rfl
  | [], ⟨input, state⟩ :: pending =>
      obtain ⟨inner, -, hleft⟩ :=
        IteratorStep.exists_of_within_eq_ended hstep fun item next => by split <;> nofun
      cases hleft

end Final

theorem acts_ofRun (run : Run ε α) : (ofRun ε α).Acts run run := by
  induction run with
  | done => exact .ended rfl
  | note event rest ih => exact .logged rfl (ih ())
  | result value rest ih => exact .found rfl (ih ())

section Acts

variable {it : Iterator ε α} {state : it.State} {run : Run ε α}

theorem Acts.map (f : α → β) (h : it.Acts state run) : (it.map f).Acts state (run.map f) :=
  h.mapped (it.map f) id fun _ => rfl

theorem Acts.tap (event : α → ε) (h : it.Acts state run) :
    (it.tap event).Acts (none, state) (run.tap event) :=
  h.tapped (it.tap event) (none, ·) (fun _ => rfl) fun _ _ => rfl

theorem Acts.chain {second : Iterator ε α} {later : second.State} {last : Run ε α}
    (h : it.Acts state run) (hlast : second.Acts later last) :
    (it.chain second).Acts (some state, later) (run.append fun _ => last) := by
  have hsecond := hlast.followed (it.chain second) (none, ·) (fun _ => rfl)
    fun hstep => .ended hstep
  rw [Run.append_done] at hsecond
  refine h.followed (it.chain second) (fun state => (some state, later)) (fun _ => rfl) ?_
  intro whole left hstep
  exact .silent hstep hsecond

end Acts

end Iterator

/-- The search was started as the attempt says, and goes on as it says. -/
def Started.Agrees (started : Started ε α) (attempt : Attempt ε α) : Prop :=
  started.log = attempt.log ∧ started.iterator.Acts started.state (attempt.run ())

namespace Iterator

theorem Acts.front {it : Iterator ε α} {f : α → Started ε β} {outer : Option it.State} {value : α}
    {state : (f value).iterator.State} {run later : Run ε β}
    (h : (f value).iterator.Acts state run) (hlater : (it.flatMap f).Acts (outer, none) later)
    (queued : List ε) :
    (it.flatMap f).Acts (outer, some ⟨value, queued, state⟩)
      ((Run.notes queued fun _ => run).append fun _ => later) := by
  induction queued with
  | nil =>
      refine h.followed (it.flatMap f) (fun next => (outer, some ⟨value, [], next⟩))
        (fun _ => rfl) ?_
      intro whole left hstep
      exact .silent hstep hlater
  | cons event queued ih => exact .logged rfl ih

theorem Acts.flatMap {it : Iterator ε α} {f : α → Started ε β} {attempts : α → Attempt ε β}
    {state : it.State} {run : Run ε α} (h : it.Acts state run)
    (hattempts : ∀ value, (f value).Agrees (attempts value)) :
    (it.flatMap f).Acts (some state, none) (run.bind fun value => (attempts value).toRun) := by
  refine h.nested (it.flatMap f) (fun next => (some next, none)) (fun _ => rfl) ?_
  intro value _ next rest hnext
  obtain ⟨hlog, hacts⟩ := hattempts value
  rw [Attempt.toRun, ← hlog]
  exact hacts.front hnext (f value).log

section Repetition

open Repetition

variable {search : Input τ → Started ε (Match τ α)}

theorem acts_queued {pending : List ((input : Input τ) × (search input).iterator.State)}
    {matched : List α} {run : Run ε (Match τ (List α))}
    (h : (repetitions search).Acts ⟨[], pending, matched⟩ run) (queued : List ε) :
    (repetitions search).Acts ⟨queued, pending, matched⟩ (.notes queued fun _ => run) := by
  induction queued with
  | nil => exact h
  | cons event queued ih => exact .logged rfl ih

theorem acts_level {p : Parser ε τ α} (hsearch : ∀ input, (search input).Agrees (p.start input))
    {input : Input τ} {state : (search input).iterator.State} {untried : Run ε (Match τ α)}
    (h : (search input).iterator.Acts state untried)
    {pending : List ((input : Input τ) × (search input).iterator.State)} {matched : List α}
    {later : Run ε (Match τ (List α))}
    (hbelow : (repetitions search).Acts ⟨[], pending, matched.tail⟩ later) :
    (repetitions search).Acts ⟨[], ⟨input, state⟩ :: pending, matched⟩
      (((untried.bind (further p input)).map (prepend matched.reverse)).append fun _ =>
        .result ⟨matched.reverse, input⟩ fun _ => later) := by
  induction hsize : input.size using Nat.strongRecOn
    generalizing input untried pending matched later with
  | _ size ih =>
      subst hsize
      refine h.level p (repetitions search) (fun next => ⟨[], ⟨input, next⟩ :: pending, matched⟩)
        (fun _ => rfl) hbelow ?_
      intro item _ hshort next rest hnext
      obtain ⟨hlog, hacts⟩ := hsearch item.rest
      have hbehind : (repetitions search).Acts
          ⟨[], ⟨input, next⟩ :: pending, (item.value :: matched).tail⟩ rest := hnext
      have hlevel := acts_queued (ih _ hshort hacts hbehind rfl) (search item.rest).log
      rw [Parser.toRun_many]
      simpa [Attempt.toRun, hlog, prepend_mk, Run.map, Run.append] using hlevel

end Repetition

end Iterator

namespace Started

def ofAttempt (attempt : Attempt ε α) : Started ε α :=
  ⟨attempt.log, .ofRun ε α, attempt.run ()⟩

def ofList (values : List α) : Started ε α :=
  ofAttempt (.ofList values)

def map (f : α → β) (started : Started ε α) : Started ε β :=
  ⟨started.log, started.iterator.map f, started.state⟩

def tap (event : α → ε) (started : Started ε α) : Started ε α :=
  ⟨started.log, started.iterator.tap event, (none, started.state)⟩

def bind (started : Started ε α) (f : α → Started ε β) : Started ε β :=
  ⟨started.log, started.iterator.flatMap f, (some started.state, none)⟩

/-- One search, and behind its end another, which is started once. -/
def append (first : Started ε α) (second : Unit → Started ε α) : Started ε α :=
  ⟨first.log, first.iterator.chain ((Iterator.ofRun ε Unit).flatMap second),
    (some first.state, (some (.ofList [()]), none))⟩

/-- Every number of repetitions of a search, from an input. -/
def many (search : Input τ → Started ε (Match τ α)) (input : Input τ) :
    Started ε (Match τ (List α)) :=
  ⟨(search input).log, .repetitions search, ⟨[], [⟨input, (search input).state⟩], []⟩⟩

variable {started : Started ε α} {attempt : Attempt ε α}

theorem agrees_ofAttempt (attempt : Attempt ε α) : (ofAttempt attempt).Agrees attempt :=
  ⟨rfl, Iterator.acts_ofRun (attempt.run ())⟩

theorem agrees_ofList (values : List α) : (ofList values : Started ε α).Agrees (.ofList values) :=
  agrees_ofAttempt (.ofList values)

theorem Agrees.map (f : α → β) (h : started.Agrees attempt) :
    (started.map f).Agrees (attempt.map f) :=
  ⟨h.1, h.2.map f⟩

theorem Agrees.tap (event : α → ε) (h : started.Agrees attempt) :
    (started.tap event).Agrees (attempt.tap event) :=
  ⟨h.1, h.2.tap event⟩

theorem Agrees.bind {f : α → Started ε β} {g : α → Attempt ε β} (h : started.Agrees attempt)
    (hf : ∀ value, (f value).Agrees (g value)) : (started.bind f).Agrees (attempt.bind g) :=
  ⟨h.1, h.2.flatMap hf⟩

theorem Agrees.append {second : Unit → Started ε α} {other : Unit → Attempt ε α}
    (h : started.Agrees attempt) (hsecond : (second ()).Agrees (other ())) :
    (started.append second).Agrees (attempt.append other) := by
  have honce := (Iterator.acts_ofRun (.ofList [()])).flatMap fun _ => hsecond
  rw [Run.ofList, Run.bind_result, Run.ofList, Run.bind, Run.append_done] at honce
  exact ⟨h.1, h.2.chain honce⟩

theorem Agrees.many {search : Input τ → Started ε (Match τ α)} {p : Parser ε τ α}
    (h : ∀ input, (search input).Agrees (p.start input)) (input : Input τ) :
    (many search input).Agrees (p.many.start input) := by
  refine ⟨(h input).1, ?_⟩
  have hbelow : (Iterator.repetitions search).Acts ⟨[], [], ([] : List α).tail⟩
      (Repetition.State.run p ⟨[], [], ([] : List α).tail⟩) := by
    rw [Repetition.run_nil]
    exact .ended rfl
  have hlevel := Iterator.acts_level h (h input).2 hbelow
  rw [← Repetition.run_level] at hlevel
  exact hlevel

end Started

namespace Expression

variable {rules : Rules ε τ ρ}

/-- The search of an expression on an input, where the family gives the searches of the rules. -/
def started (family : (i : ι) → Input τ → Started ε (Match τ (ρ i))) :
    {α : Type} → Expression ε τ ρ α → Input τ → Started ε (Match τ α)
  | _, pure value, input => .ofList [⟨value, input⟩]
  | _, fail, _ => .ofList []
  | _, eof, input => .ofList (Match.ofEnd input)
  | _, satisfy condition, input => .ofList (Match.ofFirst condition input)
  | _, leaf p _, input => .ofAttempt (p.start input)
  | _, map f body, input => (body.started family input).map (Match.map f)
  | _, tap event body, input => (body.started family input).tap (event ·.value)
  | _, andThen first second, input =>
      (first.started family input).bind fun found =>
        (second.started family found.rest).map (Match.map fun value => (found.value, value))
  | _, apply function argument, input =>
      (function.started family input).bind fun found =>
        (argument.started family found.rest).map (Match.map found.value)
  | _, orElse first second, input =>
      (first.started family input).append fun _ => second.started family input
  | _, many body, input => .many (body.started family) input
  | _, delay events body, input =>
      { body.started family input with log := events ++ (body.started family input).log }
  | _, rule i, input => family i input

/-- The searches of the rules, unfolded to the given depth. -/
def Rules.started (rules : Rules ε τ ρ) : Nat → (i : ι) → Input τ → Started ε (Match τ (ρ i))
  | 0, _, _ => .ofList []
  | depth + 1, i, input => (rules i).started (rules.started depth) input

theorem agrees_started {family : (i : ι) → Input τ → Started ε (Match τ (ρ i))}
    {parsers : (i : ι) → Parser ε τ (ρ i)}
    (h : ∀ i input, (family i input).Agrees ((parsers i).start input)) (e : Expression ε τ ρ α)
    (input : Input τ) : (e.started family input).Agrees ((e.parser parsers).start input) := by
  induction e generalizing input with
  | pure value => exact Started.agrees_ofList _
  | fail => exact Started.agrees_ofList _
  | eof => exact Started.agrees_ofList _
  | satisfy condition => exact Started.agrees_ofList _
  | leaf p h => exact Started.agrees_ofAttempt _
  | map f body ih => exact (ih input).map _
  | tap event body ih => exact (ih input).tap _
  | andThen first second ihfirst ihsecond =>
      exact (ihfirst input).bind fun found => (ihsecond found.rest).map _
  | apply function argument ihfunction ihargument =>
      exact (ihfunction input).bind fun found => (ihargument found.rest).map _
  | orElse first second ihfirst ihsecond => exact (ihfirst input).append (ihsecond input)
  | many body ih => exact Started.Agrees.many ih input
  | delay events body ih => exact ⟨congrArg (events ++ ·) (ih input).1, (ih input).2⟩
  | rule i => exact h i input

theorem agrees_unfolded (rules : Rules ε τ ρ) (depth : Nat) (e : Expression ε τ ρ α)
    (input : Input τ) :
    (e.started (rules.started depth) input).Agrees ((e.unfolded rules depth).start input) := by
  induction depth generalizing α input with
  | zero => exact agrees_started (fun _ _ => Started.agrees_ofList []) e input
  | succ depth ih => exact agrees_started (fun i input => ih (rules i) input) e input

theorem final_started {family : (i : ι) → Input τ → Started ε (Match τ (ρ i))}
    (h : ∀ i input, (family i input).iterator.Final) (e : Expression ε τ ρ α) (input : Input τ) :
    (e.started family input).iterator.Final := by
  induction e generalizing input with
  | pure value => exact Iterator.final_ofRun
  | fail => exact Iterator.final_ofRun
  | eof => exact Iterator.final_ofRun
  | satisfy condition => exact Iterator.final_ofRun
  | leaf p h => exact Iterator.final_ofRun
  | map f body ih => exact (ih input).map _
  | tap event body ih => exact (ih input).tap _
  | andThen first second ihfirst ihsecond => exact Iterator.final_flatMap _ _
  | apply function argument ihfunction ihargument => exact Iterator.final_flatMap _ _
  | orElse first second ihfirst ihsecond => exact (Iterator.final_flatMap _ _).chain
  | many body ih => exact Iterator.final_repetitions _
  | delay events body ih => exact ih input
  | rule i => exact h i input

theorem final_unfolded (rules : Rules ε τ ρ) (depth : Nat) (e : Expression ε τ ρ α)
    (input : Input τ) : (e.started (rules.started depth) input).iterator.Final := by
  induction depth generalizing α input with
  | zero => exact final_started (fun _ _ => Iterator.final_ofRun) e input
  | succ depth ih => exact final_started (fun i input => ih (rules i) input) e input

end Expression

end ScanParse
