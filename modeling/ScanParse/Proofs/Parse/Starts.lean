import Mathlib.Data.List.ReduceOption
import ScanParse.Proofs.Parse.Repetition
import ScanParse.Proofs.Parse.Stack

namespace ScanParse

variable {ε δ τ α : Type}

namespace Run

def relabel (f : ε → δ) : Run ε α → Run δ α
  | done => done
  | note event rest => note (f event) fun _ => relabel f (rest ())
  | result value rest => result value fun _ => relabel f (rest ())

theorem results_relabel (f : ε → δ) (run : Run ε α) : (run.relabel f).results = run.results := by
  induction run with
  | done => rfl
  | note event rest ih => exact ih ()
  | result value rest ih => exact congrArg (value :: ·) (ih ())

end Run

/-- The parser, with a mark (`none`) in front of the events of every start. -/
def Parser.marked (p : Parser ε τ α) : Parser (Option ε) τ α :=
  ⟨fun input => ⟨none :: (p.start input).log.map some,
    fun _ => ((p.start input).run ()).relabel some⟩⟩

theorem Parser.results_marked (p : Parser ε τ α) : p.marked.results = p.results :=
  funext fun input => Run.results_relabel some ((p.start input).run ())

def marks (events : List (Option ε)) : Nat :=
  events.countP Option.isNone

@[simp] theorem marks_nil : marks ([] : List (Option ε)) = 0 := rfl

@[simp] theorem marks_none (events : List (Option ε)) :
    marks (none :: events) = marks events + 1 := by
  simp [marks]

@[simp] theorem marks_some (event : ε) (events : List (Option ε)) :
    marks (some event :: events) = marks events := by
  simp [marks]

@[simp] theorem marks_map_some (events : List ε) : marks (events.map some) = 0 := by
  induction events with
  | nil => rfl
  | cons event events ih => rw [List.map_cons, marks_some, ih]

@[simp] theorem marks_append (events later : List (Option ε)) :
    marks (events ++ later) = marks events + marks later :=
  List.countP_append

namespace Repetition

variable {p : Parser ε τ α} {state next : State ε τ α}

def Level.marked (level : Level ε τ α) : Level (Option ε) τ α :=
  ⟨level.input, fun _ => (level.untried ()).relabel some⟩

/-- A state of the marked search in which every mark was logged. -/
def State.marked (state : State ε τ α) : State (Option ε) τ α :=
  ⟨state.queued.map some, state.pending.map Level.marked, state.matched⟩

/-- A step of the marked search is that of the search. Where a level is entered, its mark is
still to be logged. -/
inductive MarkedStep (p : Parser ε τ α) (state : State ε τ α) : Step ε τ α → Prop
  | ended : state.marked.step p.marked = .ended → MarkedStep p state .ended
  | logged {event : ε} {next : State ε τ α} : next.pending.length = state.pending.length →
      state.marked.step p.marked = .logged (some event) next.marked →
        MarkedStep p state (.logged event next)
  | skipped {next : State ε τ α} : next.pending.length = state.pending.length →
      state.marked.step p.marked = .silent next.marked → MarkedStep p state (.silent next)
  | entered {next : State ε τ α} : next.pending.length = state.pending.length + 1 →
      state.marked.step p.marked =
        .silent ⟨none :: next.marked.queued, next.marked.pending, next.marked.matched⟩ →
          MarkedStep p state (.silent next)
  | found {result : Match τ (List α)} {next : State ε τ α} :
      next.pending.length + 1 = state.pending.length →
        state.marked.step p.marked = .found result next.marked →
          MarkedStep p state (.found result next)

theorem markedStep_step (p : Parser ε τ α) (state : State ε τ α) :
    MarkedStep p state (state.step p) := by
  obtain ⟨queued, pending, matched⟩ := state
  match queued, pending with
  | event :: queued, pending => exact .logged rfl rfl
  | [], [] => exact .ended rfl
  | [], level :: pending =>
      have hmarked : level.marked.untried () = (level.untried ()).relabel some := rfl
      cases hrun : level.untried () with
      | done =>
          rw [hrun, Run.relabel] at hmarked
          rw [step_of_done hrun]
          exact .found rfl (step_of_done hmarked)
      | note event rest =>
          rw [hrun, Run.relabel] at hmarked
          rw [step_of_note hrun]
          exact .logged rfl (step_of_note hmarked)
      | result item rest =>
          rw [hrun, Run.relabel] at hmarked
          by_cases hshort : item.rest.size < level.input.size
          · rw [step_of_shorter hrun hshort]
            exact .entered rfl (step_of_shorter hmarked hshort)
          · rw [step_of_not_shorter hrun hshort]
            exact .skipped rfl (step_of_not_shorter hmarked hshort)

theorem request_marked (p : Parser ε τ α) (state : State ε τ α) :
    ∃ log, state.marked.request p.marked =
        ⟨log, (state.request p).answer, (state.request p).next.marked⟩ ∧
      log.reduceOption = (state.request p).log ∧
      marks log + state.pending.length =
        (state.request p).answer.toList.length + (state.request p).next.pending.length := by
  induction state using State.request.induct p with
  | case1 state hstep =>
      have hmarks := markedStep_step p state
      rw [hstep] at hmarks
      cases hmarks with
      | ended hmarked =>
          rw [request_of_ended hstep]
          exact ⟨[], request_of_ended hmarked, rfl, rfl⟩
  | case2 state event next hstep ih =>
      obtain ⟨log, hrequest, hlog, hcount⟩ := ih
      have hmarks := markedStep_step p state
      rw [hstep] at hmarks
      cases hmarks with
      | logged hlength hmarked =>
          rw [request_of_logged hstep]
          refine ⟨some event :: log, ?_, ?_, ?_⟩
          · rw [request_of_logged hmarked, hrequest]
          · rw [List.reduceOption_cons_of_some, hlog]
          · rw [marks_some, ← hlength, hcount]
  | case3 state next hstep ih =>
      obtain ⟨log, hrequest, hlog, hcount⟩ := ih
      have hmarks := markedStep_step p state
      rw [hstep] at hmarks
      rw [request_of_silent hstep]
      cases hmarks with
      | skipped hlength hmarked =>
          rw [request_of_silent hmarked, hrequest]
          exact ⟨log, rfl, hlog, by rw [← hlength, hcount]⟩
      | entered hlength hmarked =>
          have hmark : State.step p.marked
              ⟨none :: next.marked.queued, next.marked.pending, next.marked.matched⟩ =
                .logged none next.marked := rfl
          refine ⟨none :: log, ?_, ?_, ?_⟩
          · rw [request_of_silent hmarked, request_of_logged hmark, hrequest]
          · rw [List.reduceOption_cons_of_none, hlog]
          · rw [marks_none, ← hcount, hlength]
            omega
  | case4 state result next hstep =>
      have hmarks := markedStep_step p state
      rw [hstep] at hmarks
      cases hmarks with
      | found hlength hmarked =>
          rw [request_of_found hstep]
          refine ⟨[], request_of_found hmarked, rfl, ?_⟩
          rw [← hlength, marks_nil, Option.toList_some, List.length_singleton, Nat.zero_add,
            Nat.add_comm]

theorem asked_marked (p : Parser ε τ α) (count : Nat) (state : State ε τ α) :
    ((state.marked.run p.marked).asked count).log.reduceOption =
        ((state.run p).asked count).log ∧
      marks ((state.marked.run p.marked).asked count).log + state.pending.length =
        ((state.run p).results.take count).length + (state.behind p count).pending.length := by
  induction count generalizing state with
  | zero => exact ⟨rfl, rfl⟩
  | succ count ih =>
      obtain ⟨log, hrequest, hlog, hcount⟩ := request_marked p state
      obtain ⟨hlater, hmore⟩ := ih (state.request p).next
      have hmarked : (state.marked.run p.marked).asked (count + 1) =
          (((state.request p).next.marked.run p.marked).asked count).behind log := by
        rw [Run.asked, pull_run, hrequest]
      have hasked : (state.run p).asked (count + 1) =
          (((state.request p).next.run p).asked count).behind (state.request p).log := by
        rw [Run.asked, pull_run]
      have htaken : ((state.run p).results.take (count + 1)).length =
          (state.request p).answer.toList.length +
            (((state.request p).next.run p).results.take count).length := by
        rw [Run.length_take_succ, pull_run]
      rw [hmarked, hasked, htaken]
      constructor
      · rw [Attempt.behind, Attempt.behind, List.reduceOption_append, hlog, hlater]
      · rw [Attempt.behind, marks_append, State.behind]
        omega

theorem pending_eq_nil_of_run (h : state.run p = .done) : state.pending = [] := by
  have hresults := results_run p state
  rw [h] at hresults
  cases hpending : state.pending with
  | nil => rfl
  | cons level pending =>
      rw [hpending, stackResults] at hresults
      simp [Run.results] at hresults

end Repetition

namespace Parser

open Repetition

theorem asked_many_marked (p : Parser ε τ α) (input : Input τ) (count : Nat) :
    ((p.marked.many.start input).asked count).log.reduceOption =
        ((p.many.start input).asked count).log ∧
      marks ((p.marked.many.start input).asked count).log =
        ((p.many.results input).take count).length +
          ((State.opened p input).behind p count).pending.length := by
  obtain ⟨hlog, hmarks⟩ := asked_marked p count (State.opened p input)
  have hmarked : ((p.marked.many.start input).asked count).log =
      none :: (p.start input).log.map some ++
        (((State.opened p input).marked.run p.marked).asked count).log := rfl
  have hevents : ((p.start input).log.map some).reduceOption = (p.start input).log := by
    simp [List.reduceOption]
  constructor
  · rw [hmarked, List.cons_append, List.reduceOption_cons_of_none, List.reduceOption_append, hlog,
      hevents]
    rfl
  · have hone : (State.opened p input).pending.length = 1 := rfl
    rw [hone] at hmarks
    rw [hmarked, marks_append, marks_none, marks_map_some, Nat.zero_add, Nat.add_comm]
    exact hmarks

/-- Behind any number of requests the stacks of a repetition fit together, and its parser was
started once for every result given and once for every level on the stack; over the whole run, once
for every result. Marking the starts changes nothing else. -/
theorem many_keeps_stacks (p : Parser ε τ α) (input : Input τ) :
    (∀ count,
      let state := (State.opened p input).behind p count
      ((p.many.start input).asked count).run () = state.run p ∧ state.Balanced p input ∧
        ((p.marked.many.start input).asked count).log.reduceOption =
          ((p.many.start input).asked count).log ∧
        marks ((p.marked.many.start input).asked count).log =
          ((p.many.results input).take count).length + state.pending.length) ∧
      marks (p.marked.many.start input).toRun.log = (p.many.results input).length ∧
      p.marked.many.results input = p.many.results input := by
  have hresults : p.marked.many.results input = p.many.results input := by
    rw [results_many_eq_repetitions, results_many_eq_repetitions, results_marked]
  refine ⟨?_, ?_, hresults⟩
  · intro count
    exact ⟨asked_run p count _, ((Stacked.opened p input).behind count).balanced,
      asked_many_marked p input count⟩
  · obtain ⟨count, hlast⟩ : ∃ count, (p.many.results input).length < count :=
      ⟨_, Nat.lt_succ_self _⟩
    have hended : ((p.many.start input).asked count).run () = .done := by
      rw [Attempt.asked_of_gt hlast]
    have hempty := pending_eq_nil_of_run ((asked_run p count (.opened p input)).symm.trans hended)
    have hall := (asked_many_marked p input count).2
    rw [hempty, List.take_of_length_le (Nat.le_of_lt hlast)] at hall
    rw [← hresults] at hlast
    rw [Attempt.asked_of_gt hlast] at hall
    exact hall

end Parser

end ScanParse
