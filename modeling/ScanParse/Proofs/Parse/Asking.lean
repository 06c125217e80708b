import ScanParse.Proofs.Parse.Iterator

namespace ScanParse

universe u v

variable {ε α β : Type}

/-- What the first requests log and answer, where the run may be asked behind its end. -/
def Run.replies : Nat → Run ε α → List (List ε × Option α)
  | 0, _ => []
  | count + 1, run => (run.pull.log, run.pull.answer) :: (run.pull.rest ()).replies count

namespace IteratorStep

variable {σ : Type u} {υ : Type v}

/-- What a step gives meets a condition, and so does what it leaves. -/
def Keeps (P : σ → Prop) (Q : α → Prop) : IteratorStep ε α σ → Prop
  | ended left => P left
  | logged _ next => P next
  | silent next => P next
  | found value next => Q value ∧ P next

theorem Keeps.within {P : σ → Prop} {Q : α → Prop} {P' : υ → Prop} {Q' : β → Prop}
    {step : IteratorStep ε α σ} (h : step.Keeps P Q) {context : σ → υ}
    {atEnd : σ → IteratorStep ε β υ} {atValue : α → σ → IteratorStep ε β υ}
    (hcontext : ∀ {next}, P next → P' (context next))
    (hend : ∀ {left}, P left → (atEnd left).Keeps P' Q')
    (hvalue : ∀ {value next}, Q value → P next → (atValue value next).Keeps P' Q') :
    (step.within context atEnd atValue).Keeps P' Q' := by
  cases step with
  | ended left => exact hend h
  | logged event next => exact hcontext h
  | silent next => exact hcontext h
  | found value next => exact hvalue h.1 h.2

end IteratorStep

namespace Iterator

/-- A request: the iterator takes steps up to its next result, or to its end. -/
inductive Reply (it : Iterator.{u} ε α) : it.State → List ε → Option α → it.State → Prop
  | ended {state left : it.State} : it.step state = .ended left → Reply it state [] none left
  | logged {state next left : it.State} {event : ε} {log : List ε} {answer : Option α} :
      it.step state = .logged event next → Reply it next log answer left →
        Reply it state (event :: log) answer left
  | silent {state next left : it.State} {log : List ε} {answer : Option α} :
      it.step state = .silent next → Reply it next log answer left →
        Reply it state log answer left
  | found {state left : it.State} {value : α} :
      it.step state = .found value left → Reply it state [] (some value) left

/-- Requests one after the other, and the state that they leave. -/
inductive Asked (it : Iterator.{u} ε α) :
    it.State → List (List ε × Option α) → it.State → Prop
  | nothing {state : it.State} : Asked it state [] state
  | request {state next left : it.State} {log : List ε} {answer : Option α}
      {replies : List (List ε × Option α)} :
      it.Reply state log answer next → Asked it next replies left →
        Asked it state ((log, answer) :: replies) left

/-- What the first steps of an iterator log and give. -/
def trace (it : Iterator.{u} ε α) : Nat → it.State → List (ε ⊕ α)
  | 0, _ => []
  | n + 1, state =>
      match it.step state with
      | .ended _ => []
      | .logged event next => .inl event :: it.trace n next
      | .silent next => it.trace n next
      | .found value next => .inr value :: it.trace n next

/-- What the first steps of an iterator give. -/
def given (it : Iterator.{u} ε α) (n : Nat) (state : it.State) : List α :=
  (it.trace n state).filterMap Sum.getRight?

variable {it : Iterator.{u} ε α} {state left : it.State} {run : Run ε α} {log : List ε}
  {answer : Option α} {replies : List (List ε × Option α)}

section given

variable {next : it.State}

theorem given_of_ended (h : it.step state = .ended left) (n : Nat) : it.given n state = [] := by
  cases n with
  | zero => rfl
  | succ n =>
      rw [given, trace, h]
      rfl

theorem given_of_logged {event : ε} (h : it.step state = .logged event next) (n : Nat) :
    it.given (n + 1) state = it.given n next := by
  rw [given, trace, h]
  rfl

theorem given_of_silent (h : it.step state = .silent next) (n : Nat) :
    it.given (n + 1) state = it.given n next := by
  rw [given, trace, h]
  rfl

theorem given_of_found {value : α} (h : it.step state = .found value next) (n : Nat) :
    it.given (n + 1) state = value :: it.given n next := by
  rw [given, trace, h]
  rfl

theorem exists_mem_given_of_silent (h : it.step state = .silent next) {n : Nat} {value : α}
    (hvalue : value ∈ it.given n state) : ∃ m, value ∈ it.given m next := by
  cases n with
  | zero => cases hvalue
  | succ n =>
      rw [given_of_silent h] at hvalue
      exact ⟨n, hvalue⟩

theorem forall_mem_given {P : it.State → Prop} {Q : α → Prop}
    (hstep : ∀ state, P state → (it.step state).Keeps P Q) (n : Nat) (h : P state) :
    ∀ value ∈ it.given n state, Q value := by
  induction n generalizing state with
  | zero => simp [given, trace]
  | succ n ih =>
      have hkeeps := hstep state h
      cases hnext : it.step state with
      | ended left =>
          rw [given_of_ended hnext]
          simp
      | logged event next =>
          rw [given_of_logged hnext]
          rw [hnext] at hkeeps
          exact ih hkeeps
      | silent next =>
          rw [given_of_silent hnext]
          rw [hnext] at hkeeps
          exact ih hkeeps
      | found value next =>
          rw [given_of_found hnext]
          rw [hnext] at hkeeps
          exact List.forall_mem_cons.mpr ⟨hkeeps.1, ih hkeeps.2⟩

end given

theorem Acts.exists_reply (hfinal : it.Final) (h : it.Acts state run) :
    ∃ next, it.Reply state run.pull.log run.pull.answer next ∧ it.Acts next (run.pull.rest ()) := by
  induction h with
  | ended hstep => exact ⟨_, .ended hstep, .ended (hfinal hstep)⟩
  | logged hstep _ ih =>
      obtain ⟨next, hreply, hacts⟩ := ih
      rw [Run.pull_note]
      exact ⟨next, .logged hstep hreply, hacts⟩
  | silent hstep _ ih =>
      obtain ⟨next, hreply, hacts⟩ := ih
      exact ⟨next, .silent hstep hreply, hacts⟩
  | found hstep hnext => exact ⟨_, .found hstep, hnext⟩

theorem Acts.exists_asked (hfinal : it.Final) (h : it.Acts state run) (count : Nat) :
    ∃ left, it.Asked state (run.replies count) left := by
  induction count generalizing state run with
  | zero => exact ⟨state, .nothing⟩
  | succ count ih =>
      obtain ⟨next, hreply, hacts⟩ := h.exists_reply hfinal
      obtain ⟨left, hasked⟩ := ih hacts
      exact ⟨left, .request hreply hasked⟩

theorem Reply.eq {other : it.State} {later : List ε} {found : Option α}
    (h : it.Reply state log answer left) (hother : it.Reply state later found other) :
    log = later ∧ answer = found ∧ left = other := by
  induction h generalizing later with
  | ended hstep =>
      cases hother with
      | ended hagain =>
          obtain rfl : _ = _ := by simpa [hstep] using hagain
          exact ⟨rfl, rfl, rfl⟩
      | logged hagain | silent hagain | found hagain => simp [hstep] at hagain
  | logged hstep _ ih =>
      cases hother with
      | logged hagain hreply =>
          obtain ⟨rfl, rfl⟩ : _ ∧ _ := by simpa [hstep] using hagain
          obtain ⟨rfl, rfl, rfl⟩ := ih hreply
          exact ⟨rfl, rfl, rfl⟩
      | ended hagain | silent hagain | found hagain => simp [hstep] at hagain
  | silent hstep _ ih =>
      cases hother with
      | silent hagain hreply =>
          obtain rfl : _ = _ := by simpa [hstep] using hagain
          exact ih hreply
      | ended hagain | logged hagain | found hagain => simp [hstep] at hagain
  | found hstep =>
      cases hother with
      | found hagain =>
          obtain ⟨rfl, rfl⟩ : _ ∧ _ := by simpa [hstep] using hagain
          exact ⟨rfl, rfl, rfl⟩
      | ended hagain | logged hagain | silent hagain => simp [hstep] at hagain

theorem Acts.replies_eq (hfinal : it.Final) (h : it.Acts state run)
    (hasked : it.Asked state replies left) : replies = run.replies replies.length := by
  induction hasked generalizing run with
  | nothing => rfl
  | request hreply _ ih =>
      obtain ⟨next, hrun, hacts⟩ := h.exists_reply hfinal
      obtain ⟨rfl, rfl, rfl⟩ := hreply.eq hrun
      exact congrArg _ (ih hacts)

theorem Reply.step_left (hfinal : it.Final) (h : it.Reply state log none left) :
    it.step left = .ended left := by
  generalize hnone : (none : Option α) = answer at h
  induction h with
  | ended hstep => exact hfinal hstep
  | logged _ _ ih => exact ih hnone
  | silent _ _ ih => exact ih hnone
  | found => cases hnone

theorem Asked.eq_of_ended (hstep : it.step state = .ended state)
    (h : it.Asked state replies left) : ∀ reply ∈ replies, reply = ([], none) := by
  induction h with
  | nothing => simp
  | request hreply _ ih =>
      obtain ⟨rfl, rfl, rfl⟩ := hreply.eq (.ended hstep)
      simpa using ih hstep

theorem Asked.silent_behind_end (hfinal : it.Final) {before after : List (List ε × Option α)}
    (h : it.Asked state (before ++ (log, none) :: after) left) :
    ∀ reply ∈ after, reply = ([], none) := by
  induction before generalizing state with
  | nil =>
      cases h with
      | request hreply hafter => exact hafter.eq_of_ended (hreply.step_left hfinal)
  | cons reply before ih =>
      cases h with
      | request _ hlater => exact ih hlater

end Iterator

end ScanParse
