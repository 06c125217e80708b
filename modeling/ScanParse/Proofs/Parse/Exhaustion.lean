import ScanParse.Proofs.Parse.Asking
import ScanParse.Proofs.Parse.Isolation
import ScanParse.Proofs.Parse.Requests
import ScanParse.Proofs.Parse.Started

namespace ScanParse

variable {ε τ ι α β : Type} {ρ : ι → Type}

namespace Session

variable {session : Session ε τ α} {k : Nat}

def Ended (session : Session ε τ α) (k : Nat) : Prop :=
  ∃ run, session.cursors[k]? = some run ∧ run () = .done

theorem step_next {run : Unit → Run ε (Match τ α)} (h : session.cursors[k]? = some run) :
    session.step (.next k) = (.next (run ()).pull.answer, (run ()).pull.log,
      { session with cursors := session.cursors.setIfInBounds k (run ()).pull.rest }) := by
  simp only [step, h]

theorem ended_of_cursors {cursors : Array (Unit → Run ε (Match τ α))}
    {run : Unit → Run ε (Match τ α)} (hk : k < cursors.size) (h : run () = .done) :
    Ended { session with cursors := cursors.setIfInBounds k run } k :=
  ⟨run, Array.getElem?_setIfInBounds_self_of_lt hk, h⟩

theorem ended_of_next (h : (session.step (.next k)).1 = .next none) :
    (session.step (.next k)).2.2.Ended k := by
  cases hrun : session.cursors[k]? with
  | none => simp [step, hrun] at h
  | some run =>
      obtain ⟨hk, -⟩ := Array.getElem?_eq_some_iff.mp hrun
      rw [step_next hrun] at h ⊢
      refine ended_of_cursors hk ?_
      rw [Run.pull_of_none (Answer.next.inj h)]

theorem Ended.step (h : session.Ended k) (request : Step) :
    (session.step request).2.2.Ended k := by
  obtain ⟨run, hrun, hdone⟩ := h
  obtain ⟨hk, -⟩ := Array.getElem?_eq_some_iff.mp hrun
  by_cases hother : request.owner? session.inputs.size session.cursors.size = some k
  · cases request with
    | openInput i =>
        have hnew : i < session.inputs.size ∧ session.cursors.size = k := by
          simpa [Step.owner?] using hother
        exact absurd hnew.2 (Nat.ne_of_gt hk)
    | next j =>
        obtain rfl : j = k := Option.some.inj hother
        rw [step_next hrun, hdone]
        exact ended_of_cursors hk rfl
    | rest j =>
        obtain rfl : j = k := Option.some.inj hother
        simp only [Session.step, hrun]
        exact ended_of_cursors hk rfl
    | first i | complete i => simp [Step.owner?] at hother
  · exact ⟨run, (cursors_step_of_ne hother).trans hrun, hdone⟩

theorem Ended.answers (h : session.Ended k) (requests : List Step) {i : Nat}
    (hi : requests[i]? = some (.next k)) :
    (session.answers requests)[i]? = some (.next none, []) := by
  induction requests generalizing session i with
  | nil => simp at hi
  | cons request requests ih =>
      cases i with
      | zero =>
          obtain ⟨run, hrun, hdone⟩ := h
          obtain rfl : request = .next k := by simpa using hi
          rw [Session.answers, step_next hrun, hdone]
          rfl
      | succ i => exact ih (h.step request) (by simpa using hi)

end Session

namespace Expression

/-- A result sequence ends for good: behind the first end each answer is the end, with nothing
logged. A session answers so, whatever other requests come between. So do the searches of
expressions, at every depth to which the rules are unfolded, when they are put together, as the
parsers are, from iterators that can be asked again behind their ends. -/
theorem results_end_for_good :
    (∀ (session : Session ε τ α) (k : Nat), (session.step (.next k)).1 = .next none →
      ∀ (requests : List Session.Step) (i : Nat), requests[i]? = some (.next k) →
        ((session.step (.next k)).2.2.answers requests)[i]? = some (.next none, [])) ∧
      ∀ (rules : Rules ε τ ρ) (depth : Nat) (e : Expression ε τ ρ α) (input : Input τ),
        let search := e.started (rules.started depth) input
        let attempt := (e.unfolded rules depth).start input
        search.log = attempt.log ∧
          (∀ count, ∃ left,
            search.iterator.Asked search.state ((attempt.run ()).replies count) left) ∧
          ∀ replies left, search.iterator.Asked search.state replies left →
            replies = (attempt.run ()).replies replies.length ∧
              ∀ before log after, replies = before ++ (log, none) :: after →
                ∀ reply ∈ after, reply = ([], none) := by
  constructor
  · intro session k hnone requests i hi
    exact (Session.ended_of_next hnone).answers requests hi
  · intro rules depth e input
    obtain ⟨hlog, hacts⟩ := agrees_unfolded rules depth e input
    have hfinal := final_unfolded rules depth e input
    refine ⟨hlog, fun count => hacts.exists_asked hfinal count, ?_⟩
    intro replies left hasked
    refine ⟨hacts.replies_eq hfinal hasked, ?_⟩
    rintro before log after rfl
    exact hasked.silent_behind_end hfinal

end Expression

end ScanParse
