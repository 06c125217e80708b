import ScanParse.Parse.RepetitionResults
import ScanParse.Proofs.Parse.Built
import ScanParse.Proofs.Parse.Requests

/-!
The stack of a repetition between two requests. Each level was entered with the last
match taken from the level below it, so the inputs of the levels shrink, and the items
matched so far are those that led from level to level.
-/

namespace ScanParse

variable {ε τ α : Type}

namespace Run

/-- The next request gets the same answer, and leaves the same run. -/
def SameNext (run other : Run ε α) : Prop :=
  run.pull.answer = other.pull.answer ∧ run.pull.rest () = other.pull.rest ()

end Run

namespace Repetition

/-- What a request for a result gives: the events logged on the way, the answer, and the
search that is left. -/
structure Reply (ε τ α : Type) where
  log : List ε
  answer : Option (Match τ (List α))
  next : State ε τ α

/-- Asks a search for its next result: it takes steps up to there, or to its end. -/
def State.request (parser : Parser ε τ α) (state : State ε τ α) : Reply ε τ α :=
  match _h : state.step parser with
  | .ended => ⟨[], none, state⟩
  | .logged event next =>
      let reply := next.request parser
      ⟨event :: reply.log, reply.answer, reply.next⟩
  | .silent next => next.request parser
  | .found result next => ⟨[], some result, next⟩
termination_by state.work parser
decreasing_by all_goals exact work_step (by simp [*, Step.next?])

/-- The search for repetitions before the first request. -/
def State.opened (parser : Parser ε τ α) (input : Input τ) : State ε τ α :=
  ⟨[], [⟨input, (parser.start input).run⟩], []⟩

def State.behind (parser : Parser ε τ α) : Nat → State ε τ α → State ε τ α
  | 0, state => state
  | count + 1, state => behind parser count (state.request parser).next

variable {p : Parser ε τ α} {input : Input τ} {state next : State ε τ α}

theorem request_of_ended (h : state.step p = .ended) : state.request p = ⟨[], none, state⟩ := by
  rw [State.request]
  split <;> simp_all

theorem request_of_logged {event : ε} (h : state.step p = .logged event next) :
    state.request p =
      ⟨event :: (next.request p).log, (next.request p).answer, (next.request p).next⟩ := by
  rw [State.request]
  split <;> simp_all

theorem request_of_silent (h : state.step p = .silent next) :
    state.request p = next.request p := by
  rw [State.request]
  split <;> simp_all

theorem request_of_found {result : Match τ (List α)} (h : state.step p = .found result next) :
    state.request p = ⟨[], some result, next⟩ := by
  rw [State.request]
  split <;> simp_all

theorem pull_run (p : Parser ε τ α) (state : State ε τ α) :
    (state.run p).pull =
      ⟨(state.request p).log, (state.request p).answer, fun _ => (state.request p).next.run p⟩ := by
  induction state using State.request.induct p with
  | case1 state hstep => rw [run_of_ended hstep, request_of_ended hstep, run_of_ended hstep]; rfl
  | case2 state event next hstep ih =>
      rw [run_of_logged hstep, request_of_logged hstep, Run.pull_note, ih]
  | case3 state next hstep ih => rw [run_of_silent hstep, request_of_silent hstep, ih]
  | case4 state result next hstep =>
      rw [run_of_found hstep, request_of_found hstep]
      rfl

theorem asked_run (p : Parser ε τ α) (count : Nat) (state : State ε τ α) :
    ((state.run p).asked count).run () = (state.behind p count).run p := by
  induction count generalizing state with
  | zero => rfl
  | succ count ih =>
      rw [Run.asked, pull_run]
      exact ih (state.request p).next

section Steps

variable {level : Level ε τ α} {pending : List (Level ε τ α)} {matched : List α}

theorem step_of_done (h : level.untried () = .done) :
    State.step p ⟨[], level :: pending, matched⟩ =
      .found ⟨matched.reverse, level.input⟩ ⟨[], pending, matched.tail⟩ := by
  simp [State.step, h]

theorem step_of_note {event : ε} {rest : Unit → Run ε (Match τ α)}
    (h : level.untried () = .note event rest) :
    State.step p ⟨[], level :: pending, matched⟩ =
      .logged event ⟨[], ⟨level.input, rest⟩ :: pending, matched⟩ := by
  simp [State.step, h]

theorem step_of_shorter {item : Match τ α} {rest : Unit → Run ε (Match τ α)}
    (h : level.untried () = .result item rest) (hshort : item.rest.size < level.input.size) :
    State.step p ⟨[], level :: pending, matched⟩ =
      .silent (.enter p item.rest (⟨level.input, rest⟩ :: pending) (item.value :: matched)) := by
  simp [State.step, h, hshort]

theorem step_of_not_shorter {item : Match τ α} {rest : Unit → Run ε (Match τ α)}
    (h : level.untried () = .result item rest) (hlong : ¬ item.rest.size < level.input.size) :
    State.step p ⟨[], level :: pending, matched⟩ =
      .silent ⟨[], ⟨level.input, rest⟩ :: pending, matched⟩ := by
  simp [State.step, h, hlong]

end Steps

/-- The next result of the level is the next one of the parser there, behind those that were
taken. -/
def Level.Open (p : Parser ε τ α) (level : Level ε τ α) : Prop :=
  ∃ count, (((p.start level.input).asked count).run ()).SameNext (level.untried ())

/-- The match is the last one that was taken from the run of the parser at the level, and what is
left of that run is all that is untried. -/
def Level.LastTaken (p : Parser ε τ α) (level : Level ε τ α) (found : Match τ α) : Prop :=
  ∃ count, (p.results level.input)[count]? = some found ∧
    ((p.start level.input).asked (count + 1)).run () = level.untried ()

/-- The levels of a search, deepest first, and the items that led from each to the next: a level
was entered with the last match taken from the level below it, which consumes something. -/
inductive Stacked (p : Parser ε τ α) (input : Input τ) : List (Level ε τ α) → List α → Prop
  | ended : Stacked p input [] []
  | root {level : Level ε τ α} : level.input = input → level.Open p → Stacked p input [level] []
  | entered {level lower : Level ε τ α} {pending : List (Level ε τ α)} {item : α}
      {matched : List α} :
      Stacked p input (lower :: pending) matched → lower.LastTaken p ⟨item, level.input⟩ →
        level.input.size < lower.input.size → level.Open p →
          Stacked p input (level :: lower :: pending) (item :: matched)

theorem Level.LastTaken.isOpen {level : Level ε τ α} {found : Match τ α}
    (h : level.LastTaken p found) : level.Open p := by
  obtain ⟨count, _, hrest⟩ := h
  refine ⟨count + 1, ?_⟩
  rw [hrest]
  exact ⟨rfl, rfl⟩

theorem open_started (p : Parser ε τ α) (input : Input τ) :
    Level.Open p ⟨input, (p.start input).run⟩ :=
  ⟨0, rfl, rfl⟩

theorem Level.Open.of_note {level : Level ε τ α} {event : ε} {rest : Unit → Run ε (Match τ α)}
    (h : level.Open p) (huntried : level.untried () = .note event rest) :
    Level.Open p ⟨level.input, rest⟩ := by
  obtain ⟨count, hnext⟩ := h
  rw [huntried] at hnext
  exact ⟨count, by simpa [Run.SameNext] using hnext⟩

theorem Level.Open.of_result {level : Level ε τ α} {item : Match τ α}
    {rest : Unit → Run ε (Match τ α)} (h : level.Open p)
    (huntried : level.untried () = .result item rest) :
    Level.LastTaken p ⟨level.input, rest⟩ item := by
  obtain ⟨count, hanswer, hrest⟩ := h
  rw [huntried] at hanswer hrest
  refine ⟨count, ?_, ?_⟩
  · exact (Run.getElem?_results _ count).trans hanswer
  · exact (Run.asked_succ _ count).trans hrest

namespace Stacked

variable {level : Level ε τ α} {pending : List (Level ε τ α)} {matched : List α}

theorem isOpen (h : Stacked p input (level :: pending) matched) : level.Open p := by
  cases h with
  | root _ hopen => exact hopen
  | entered _ _ _ hopen => exact hopen

theorem deepest (h : Stacked p input (level :: pending) matched)
    {untried : Unit → Run ε (Match τ α)} (hopen : Level.Open p ⟨level.input, untried⟩) :
    Stacked p input (⟨level.input, untried⟩ :: pending) matched := by
  cases h with
  | root hinput _ => exact .root hinput hopen
  | entered hlower htaken hshort _ => exact .entered hlower htaken hshort hopen

theorem leave (h : Stacked p input (level :: pending) matched) :
    Stacked p input pending matched.tail := by
  cases h with
  | root => exact .ended
  | entered hlower => exact hlower

theorem step (h : Stacked p input state.pending state.matched)
    (hnext : (state.step p).next? = some next) : Stacked p input next.pending next.matched := by
  obtain ⟨queued, pending, matched⟩ := state
  match queued, pending with
  | event :: queued, pending =>
      obtain rfl : _ = next := by simpa [State.step, Step.next?] using hnext
      exact h
  | [], [] => simp [State.step, Step.next?] at hnext
  | [], level :: pending =>
      cases hrun : level.untried () with
      | done =>
          rw [step_of_done hrun] at hnext
          obtain rfl := Option.some.inj hnext
          exact h.leave
      | note event rest =>
          rw [step_of_note hrun] at hnext
          obtain rfl := Option.some.inj hnext
          exact h.deepest (h.isOpen.of_note hrun)
      | result item rest =>
          have htaken := h.isOpen.of_result hrun
          have hlevel := h.deepest htaken.isOpen
          by_cases hshort : item.rest.size < level.input.size
          · rw [step_of_shorter hrun hshort] at hnext
            obtain rfl := Option.some.inj hnext
            exact .entered hlevel htaken hshort (open_started p item.rest)
          · rw [step_of_not_shorter hrun hshort] at hnext
            obtain rfl := Option.some.inj hnext
            exact hlevel

theorem request (h : Stacked p input state.pending state.matched) :
    Stacked p input (state.request p).next.pending (state.request p).next.matched := by
  induction state using State.request.induct p with
  | case1 state hstep =>
      rw [request_of_ended hstep]
      exact h
  | case2 state event next hstep ih =>
      rw [request_of_logged hstep]
      exact ih (h.step (by rw [hstep, Step.next?]))
  | case3 state next hstep ih =>
      rw [request_of_silent hstep]
      exact ih (h.step (by rw [hstep, Step.next?]))
  | case4 state result next hstep =>
      rw [request_of_found hstep]
      exact h.step (by rw [hstep, Step.next?])

theorem behind (h : Stacked p input state.pending state.matched) (count : Nat) :
    Stacked p input (state.behind p count).pending (state.behind p count).matched := by
  induction count generalizing state with
  | zero => exact h
  | succ count ih => exact ih h.request

theorem opened (p : Parser ε τ α) (input : Input τ) :
    Stacked p input (State.opened p input).pending (State.opened p input).matched :=
  .root rfl (open_started p input)

end Stacked

/-- The two stacks of a search fit together. -/
structure State.Balanced (p : Parser ε τ α) (input : Input τ) (state : State ε τ α) : Prop where
  lengths : state.pending = [] ∧ state.matched = [] ∨
    state.matched.length + 1 = state.pending.length
  shrinks : state.pending.Pairwise fun deeper lower => deeper.input.size < lower.input.size
  suffixes : p.KeepsSuffix →
    state.pending.Pairwise fun deeper lower => deeper.input.toList <:+ lower.input.toList
  root : ∀ level ∈ state.pending.getLast?, level.input = input
  depth : state.pending.length ≤ input.size + 1
  /-- From the bottom of the stacks on, an item and the next input are the match that was taken
  last. -/
  taken : ∀ (i : Nat) (lower level : Level ε τ α) (item : α),
    state.pending.reverse[i]? = some lower → state.pending.reverse[i + 1]? = some level →
      state.matched.reverse[i]? = some item → lower.LastTaken p ⟨item, level.input⟩

namespace Stacked

variable {level : Level ε τ α} {pending : List (Level ε τ α)} {matched : List α}

theorem lengths (h : Stacked p input pending matched) :
    pending = [] ∧ matched = [] ∨ matched.length + 1 = pending.length := by
  induction h with
  | ended => exact .inl ⟨rfl, rfl⟩
  | root => exact .inr rfl
  | entered _ _ _ _ ih => exact .inr (by simpa using ih)

theorem pairwise (related : Input τ → Input τ → Prop)
    (htrans : ∀ {a b c}, related a b → related b c → related a c)
    (hrelated : ∀ {lower upper : Level ε τ α} {item : α},
      lower.LastTaken p ⟨item, upper.input⟩ → upper.input.size < lower.input.size →
        related upper.input lower.input)
    (h : Stacked p input pending matched) :
    pending.Pairwise fun deeper lower => related deeper.input lower.input := by
  induction h with
  | ended => exact .nil
  | root => exact List.pairwise_singleton _ _
  | @entered level lower pending item matched _ htaken hshort _ ih =>
      have hlower := hrelated htaken hshort
      refine .cons ?_ ih
      intro other hother
      cases hother with
      | head => exact hlower
      | tail _ hmem => exact htrans hlower (List.rel_of_pairwise_cons ih hmem)

theorem depth (h : Stacked p input (level :: pending) matched) :
    (level :: pending).length + level.input.size ≤ input.size + 1 := by
  induction pending generalizing level matched with
  | nil =>
      cases h with
      | root hinput _ =>
          rw [hinput, List.length_singleton]
          omega
  | cons lower pending ih =>
      cases h with
      | entered hlower _ hshort _ =>
          have := ih hlower
          simp only [List.length_cons] at this ⊢
          omega

theorem root_input (h : Stacked p input pending matched) :
    ∀ level ∈ pending.getLast?, level.input = input := by
  induction h with
  | ended => simp
  | root hinput _ => simpa using hinput
  | entered _ _ _ _ ih => simpa [List.getLast?_cons_cons] using ih

theorem taken (h : Stacked p input pending matched) {i : Nat} {lower upper : Level ε τ α}
    {item : α} (hlower : pending.reverse[i]? = some lower)
    (hupper : pending.reverse[i + 1]? = some upper) (hitem : matched.reverse[i]? = some item) :
    lower.LastTaken p ⟨item, upper.input⟩ := by
  induction h with
  | ended => simp at hlower
  | root => simp at hupper
  | @entered deepest below pending last matched hstack htaken _ _ ih =>
      have hlength : matched.length = pending.length := by simpa using hstack.lengths
      rw [List.reverse_cons] at hlower hupper hitem
      rcases Nat.lt_or_ge i matched.length with hlt | hge
      · have hpending : i + 1 < (below :: pending).reverse.length := by simp; omega
        rw [List.getElem?_append_left (Nat.lt_of_succ_lt hpending)] at hlower
        rw [List.getElem?_append_left hpending] at hupper
        rw [List.getElem?_append_left (by simpa using hlt)] at hitem
        exact ih hlower hupper hitem
      · obtain rfl : i = matched.length := by
          have hbound := (List.getElem?_eq_some_iff.mp hitem).1
          simp at hbound
          omega
        obtain rfl : below = lower := by simpa [hlength] using hlower
        obtain rfl : deepest = upper := by simpa [hlength] using hupper
        obtain rfl : last = item := by simpa using hitem
        exact htaken

theorem balanced (h : Stacked p input state.pending state.matched) : state.Balanced p input where
  lengths := h.lengths
  shrinks := h.pairwise (·.size < ·.size) Nat.lt_trans fun _ hshort => hshort
  suffixes := by
    intro hsuffix
    refine h.pairwise (·.toList <:+ ·.toList) List.IsSuffix.trans ?_
    rintro lower upper item ⟨count, hfound, -⟩ -
    exact hsuffix lower.input _ (List.mem_of_getElem? hfound)
  root := h.root_input
  depth := by
    cases hpending : state.pending with
    | nil => exact Nat.zero_le _
    | cons level pending =>
        rw [hpending] at h
        exact Nat.le_of_add_right_le h.depth
  taken _ _ _ _ := h.taken

end Stacked

end Repetition

end ScanParse
