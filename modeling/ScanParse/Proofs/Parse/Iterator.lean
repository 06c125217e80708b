import ScanParse.Parse.RepetitionResults

namespace ScanParse

universe u v

variable {ε τ α β : Type} {σ : Type u} {υ : Type v}

/-- What one step of an iterator with states `σ` comes to. An end leaves a state too: the iterator
may be asked again. -/
inductive IteratorStep (ε α : Type) (σ : Type u) : Type u
  | ended (left : σ)
  | logged (event : ε) (next : σ)
  | silent (next : σ)
  | found (value : α) (next : σ)

namespace IteratorStep

/-- The step of an iterator in which another one has made a step: `context` puts the state of the
other one back, and the last two arguments say what its end and its values lead to. -/
def within (step : IteratorStep ε α σ) (context : σ → υ) (atEnd : σ → IteratorStep ε β υ)
    (atValue : α → σ → IteratorStep ε β υ) : IteratorStep ε β υ :=
  match step with
  | ended left => atEnd left
  | logged event next => .logged event (context next)
  | silent next => .silent (context next)
  | found value next => atValue value next

theorem exists_of_within_eq_ended {step : IteratorStep ε α σ} {context : σ → υ}
    {atEnd : σ → IteratorStep ε β υ} {atValue : α → σ → IteratorStep ε β υ} {left : υ}
    (h : step.within context atEnd atValue = .ended left)
    (hvalue : ∀ value next, atValue value next ≠ .ended left) :
    ∃ inner, step = .ended inner ∧ atEnd inner = .ended left := by
  cases step with
  | ended inner => exact ⟨inner, rfl, h⟩
  | logged event next => cases h
  | silent next => cases h
  | found value next => exact absurd h (hvalue value next)

end IteratorStep

/-- An iterator over results: its states, and the step from each. -/
structure Iterator (ε α : Type) : Type (u + 1) where
  State : Type u
  step : State → IteratorStep ε α State

namespace Iterator

/-- Behind its end the iterator ends at once, and stays as it is. -/
def Final (it : Iterator.{u} ε α) : Prop :=
  ∀ ⦃state left : it.State⦄, it.step state = .ended left → it.step left = .ended left

/-- From the state the iterator logs and gives what the run says, and ends where it ends. There are
finitely many steps up to every result, so that each request for one is answered, and finitely many
results. -/
inductive Acts (it : Iterator.{u} ε α) : it.State → Run ε α → Prop
  | ended {state left : it.State} : it.step state = .ended left → Acts it state .done
  | logged {state next : it.State} {event : ε} {run : Run ε α} :
      it.step state = .logged event next → Acts it next run →
        Acts it state (.note event fun _ => run)
  | silent {state next : it.State} {run : Run ε α} :
      it.step state = .silent next → Acts it next run → Acts it state run
  | found {state next : it.State} {value : α} {run : Run ε α} :
      it.step state = .found value next → Acts it next run →
        Acts it state (.result value fun _ => run)

variable {it : Iterator.{u} ε α} {state : it.State} {run : Run ε α}

theorem Acts.eq {other : Run ε α} (hrun : it.Acts state run) (hother : it.Acts state other) :
    run = other := by
  induction hrun generalizing other with
  | ended hstep =>
      cases hother with
      | ended => rfl
      | logged h | silent h | found h => simp [hstep] at h
  | logged hstep _ ih =>
      cases hother with
      | logged h hrest =>
          obtain ⟨rfl, rfl⟩ : _ ∧ _ := by simpa [hstep] using h
          rw [ih hrest]
      | ended h | silent h | found h => simp [hstep] at h
  | silent hstep _ ih =>
      cases hother with
      | silent h hrest =>
          obtain rfl : _ = _ := by simpa [hstep] using h
          exact ih hrest
      | ended h | logged h | found h => simp [hstep] at h
  | found hstep _ ih =>
      cases hother with
      | found h hrest =>
          obtain ⟨rfl, rfl⟩ : _ ∧ _ := by simpa [hstep] using h
          rw [ih hrest]
      | ended h | logged h | silent h => simp [hstep] at h

theorem Acts.within (h : it.Acts state run) (outer : Iterator.{v} ε β)
    (context : it.State → outer.State) (join : Run ε α → Run ε β)
    {atEnd : it.State → IteratorStep ε β outer.State}
    {atValue : α → it.State → IteratorStep ε β outer.State}
    (hcontext : ∀ state, outer.step (context state) =
      (it.step state).within context atEnd atValue)
    (hnote : ∀ event rest, join (.note event rest) = .note event fun _ => join (rest ()))
    (hend : ∀ {whole left}, outer.step whole = atEnd left → outer.Acts whole (join .done))
    (hvalue : ∀ value ∈ run.results, ∀ {whole next rest}, outer.step whole = atValue value next →
      outer.Acts (context next) (join rest) →
        outer.Acts whole (join (.result value fun _ => rest))) :
    outer.Acts (context state) (join run) := by
  induction h with
  | @ended state left hstep =>
      have hwhole := hcontext state
      rw [hstep] at hwhole
      exact hend hwhole
  | @logged state next event run hstep _ ih =>
      have hwhole := hcontext state
      rw [hstep] at hwhole
      rw [hnote]
      exact .logged hwhole (ih hvalue)
  | @silent state next run hstep _ ih =>
      have hwhole := hcontext state
      rw [hstep] at hwhole
      exact .silent hwhole (ih hvalue)
  | @found state next value run hstep _ ih =>
      have hwhole := hcontext state
      rw [hstep] at hwhole
      have hnext := ih fun value hmem => hvalue value (List.mem_cons_of_mem _ hmem)
      exact hvalue value List.mem_cons_self hwhole hnext

theorem Acts.through (h : it.Acts state run) (outer : Iterator.{v} ε β)
    (context : it.State → outer.State) {f : α → β} {last : Run ε β}
    {atEnd : it.State → IteratorStep ε β outer.State}
    (hcontext : ∀ state, outer.step (context state) =
      (it.step state).within context atEnd fun value next => .found (f value) (context next))
    (hlast : ∀ {whole left}, outer.step whole = atEnd left → outer.Acts whole last) :
    outer.Acts (context state) ((run.map f).append fun _ => last) := by
  refine h.within outer context (fun run => (run.map f).append fun _ => last) hcontext
    (fun _ _ => rfl) hlast ?_
  intro value _ whole next rest hstep hnext
  exact .found hstep hnext

theorem Acts.followed (h : it.Acts state run) (outer : Iterator.{v} ε α)
    (context : it.State → outer.State) {atEnd : it.State → IteratorStep ε α outer.State}
    {last : Run ε α}
    (hcontext : ∀ state, outer.step (context state) =
      (it.step state).within context atEnd fun value next => .found value (context next))
    (hlast : ∀ {whole left}, outer.step whole = atEnd left → outer.Acts whole last) :
    outer.Acts (context state) (run.append fun _ => last) := by
  have hacts : outer.Acts (context state) ((run.map id).append fun _ => last) :=
    h.through outer context hcontext hlast
  rwa [Run.map_id] at hacts

theorem Acts.mapped (h : it.Acts state run) (outer : Iterator.{v} ε β)
    (context : it.State → outer.State) {f : α → β} {left : it.State → outer.State}
    (hcontext : ∀ state, outer.step (context state) =
      (it.step state).within context (fun inner => .ended (left inner)) fun value next =>
        .found (f value) (context next)) :
    outer.Acts (context state) (run.map f) := by
  have hacts := h.through outer context hcontext fun hstep => .ended hstep
  rwa [Run.append_done] at hacts

theorem Acts.tapped (h : it.Acts state run) (outer : Iterator.{v} ε α)
    (context : it.State → outer.State) {event : α → ε} {left : it.State → outer.State}
    {held : α → it.State → outer.State}
    (hcontext : ∀ state, outer.step (context state) =
      (it.step state).within context (fun inner => .ended (left inner)) fun value next =>
        .logged (event value) (held value next))
    (hheld : ∀ value next, outer.step (held value next) = .found value (context next)) :
    outer.Acts (context state) (run.tap event) := by
  refine h.within outer context (Run.tap event) hcontext (fun _ _ => rfl) ?_ ?_
  · intro whole inner hstep
    exact .ended hstep
  · intro value _ whole next rest hstep hnext
    exact .logged hstep (.found (hheld value next) hnext)

theorem Acts.nested (h : it.Acts state run) (outer : Iterator.{v} ε β)
    (context : it.State → outer.State) {runs : α → Run ε β} {left : it.State → outer.State}
    {inside : α → it.State → outer.State}
    (hcontext : ∀ state, outer.step (context state) =
      (it.step state).within context (fun inner => .ended (left inner)) fun value next =>
        .silent (inside value next))
    (hinside : ∀ value ∈ run.results, ∀ {next rest}, outer.Acts (context next) rest →
      outer.Acts (inside value next) ((runs value).append fun _ => rest)) :
    outer.Acts (context state) (run.bind runs) := by
  refine h.within outer context (Run.bind · runs) hcontext (fun _ _ => rfl) ?_ ?_
  · intro whole inner hstep
    exact .ended hstep
  · intro value hvalue whole next rest hstep hnext
    rw [Run.bind_result]
    exact .silent hstep (hinside value hvalue hnext)

open Repetition in
theorem Acts.level (p : Parser ε τ α) {it : Iterator.{u} ε (Match τ α)} {state : it.State}
    {run : Run ε (Match τ α)} (h : it.Acts state run)
    (outer : Iterator.{v} ε (Match τ (List α))) (context : it.State → outer.State)
    {input : Input τ} {matched : List α} {below : outer.State}
    {deeper : Match τ α → it.State → outer.State}
    {later : Run ε (Match τ (List α))}
    (hcontext : ∀ state, outer.step (context state) =
      (it.step state).within context (fun _ => .found ⟨matched.reverse, input⟩ below)
        fun item next =>
          if item.rest.size < input.size then .silent (deeper item next)
          else .silent (context next))
    (hbelow : outer.Acts below later)
    (hdeeper : ∀ item ∈ run.results, item.rest.size < input.size → ∀ {next rest},
      outer.Acts (context next) rest →
        outer.Acts (deeper item next)
          (((p.many.start item.rest).toRun.map (prepend (item.value :: matched).reverse)).append
            fun _ => rest)) :
    outer.Acts (context state)
      (((run.bind (further p input)).map (prepend matched.reverse)).append fun _ =>
        .result ⟨matched.reverse, input⟩ fun _ => later) := by
  refine h.within outer context
    (fun run => ((run.bind (further p input)).map (prepend matched.reverse)).append fun _ =>
      .result ⟨matched.reverse, input⟩ fun _ => later)
    hcontext (fun _ _ => rfl) ?_ ?_
  · intro whole left hstep
    exact .found hstep hbelow
  · intro item hitem whole next rest hstep hnext
    rw [Run.bind_result, further]
    by_cases hshort : item.rest.size < input.size
    · rw [if_pos hshort] at hstep ⊢
      refine .silent hstep ?_
      simpa [prepend_prepend] using hdeeper item hitem hshort hnext
    · rw [if_neg hshort] at hstep ⊢
      exact .silent hstep hnext

end Iterator

end ScanParse
