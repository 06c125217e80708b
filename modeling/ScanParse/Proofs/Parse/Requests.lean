import ScanParse.Proofs.Parse.Pulling

namespace ScanParse

variable {ε α β : Type}

/-- The attempt when some events were logged before it. -/
def Attempt.behind (events : List ε) (attempt : Attempt ε α) : Attempt ε α :=
  ⟨events ++ attempt.log, attempt.run⟩

@[simp] theorem Attempt.behind_behind (events later : List ε) (attempt : Attempt ε α) :
    (attempt.behind later).behind events = attempt.behind (events ++ later) := by
  rw [behind, behind, behind, List.append_assoc]

namespace Run

theorem pull_of_none {run : Run ε α} (h : run.pull.answer = none) :
    run.pull = ⟨run.log, none, fun _ => done⟩ := by
  induction run with
  | done => rfl
  | note event rest ih =>
      rw [pull_note] at h ⊢
      rw [ih () h, log]
  | result value rest ih => simp at h

theorem log_of_pull (run : Run ε α) : run.log = run.pull.log ++ (run.pull.rest ()).log := by
  induction run with
  | done => rfl
  | note event rest ih =>
      rw [pull_note, log, ih ()]
      rfl
  | result value rest ih => rfl

theorem results_of_pull_some {run : Run ε α} {value : α} (h : run.pull.answer = some value) :
    run.results = value :: (run.pull.rest ()).results := by
  rw [results_of_pull, h]
  rfl

theorem exists_answer {run : Run ε α} (h : run.results ≠ []) :
    ∃ value, run.pull.answer = some value := by
  cases hanswer : run.pull.answer with
  | none => exact absurd (results_of_pull_none hanswer) h
  | some value => exact ⟨value, rfl⟩

theorem pull_notes (events : List ε) (run : Unit → Run ε α) :
    (notes events run).pull = { (run ()).pull with log := events ++ (run ()).pull.log } := by
  induction events with
  | nil => rfl
  | cons event events ih =>
      rw [notes, pull_note, ih]
      rfl

theorem pull_map (f : α → β) (run : Run ε α) :
    (run.map f).pull =
      ⟨run.pull.log, run.pull.answer.map f, fun _ => (run.pull.rest ()).map f⟩ := by
  induction run with
  | done => rfl
  | note event rest ih => rw [map, pull_note, ih, pull_note]
  | result value rest ih => rfl

theorem pull_append_of_some {first : Run ε α} {value : α} (h : first.pull.answer = some value)
    (second : Unit → Run ε α) :
    (first.append second).pull =
      ⟨first.pull.log, some value, fun _ => (first.pull.rest ()).append second⟩ := by
  induction first with
  | done => simp at h
  | note event rest ih =>
      rw [pull_note] at h
      rw [append, pull_note, ih () h, pull_note]
  | result found rest ih =>
      obtain rfl : found = value := by simpa using h
      rfl

theorem pull_append_of_none {first : Run ε α} (h : first.pull.answer = none)
    (second : Unit → Run ε α) :
    (first.append second).pull =
      { (second ()).pull with log := first.log ++ (second ()).pull.log } := by
  induction first with
  | done => rfl
  | note event rest ih =>
      rw [pull_note] at h
      rw [append, pull_note, ih () h]
      rfl
  | result value rest ih => simp at h

theorem pull_bind_of_some {run : Run ε α} {value : α} (h : run.pull.answer = some value)
    (f : α → Run ε β) :
    (run.bind f).pull =
      { ((f value).append fun _ => (run.pull.rest ()).bind f).pull with
        log := run.pull.log ++
          ((f value).append fun _ => (run.pull.rest ()).bind f).pull.log } := by
  induction run with
  | done => simp at h
  | note event rest ih =>
      rw [pull_note] at h
      rw [bind, pull_note, ih () h, pull_note]
      rfl
  | result found rest ih =>
      obtain rfl : found = value := by simpa using h
      rw [bind_result]
      rfl

theorem pull_bind_of_none {run : Run ε α} (h : run.pull.answer = none)
    (f : α → Run ε β) :
    (run.bind f).pull = ⟨run.pull.log, none, fun _ => done⟩ := by
  induction run with
  | done => rfl
  | note event rest ih =>
      rw [pull_note] at h
      rw [bind, pull_note, ih () h, pull_note]
  | result value rest ih => simp at h

/-- The run behind its first `count` requests, with all that they log. -/
def asked : Nat → Run ε α → Attempt ε α
  | 0, run => ⟨[], fun _ => run⟩
  | count + 1, run => ((run.pull.rest ()).asked count).behind run.pull.log

theorem asked_done (count : Nat) : (done : Run ε α).asked count = ⟨[], fun _ => done⟩ := by
  induction count with
  | zero => rfl
  | succ count ih =>
      rw [asked, pull_done, ih]
      rfl

theorem asked_of_none {run : Run ε α} (h : run.pull.answer = none) (count : Nat) :
    run.asked (count + 1) = ⟨run.log, fun _ => done⟩ := by
  rw [asked, pull_of_none h, asked_done, Attempt.behind, List.append_nil]

theorem asked_of_pull {run other : Run ε α} {events : List ε}
    (h : run.pull = { other.pull with log := events ++ other.pull.log }) (count : Nat) :
    run.asked (count + 1) = (other.asked (count + 1)).behind events := by
  rw [asked, h, asked, Attempt.behind_behind]

theorem asked_notes (events : List ε) (run : Unit → Run ε α) (count : Nat) :
    (notes events run).asked (count + 1) = ((run ()).asked (count + 1)).behind events :=
  asked_of_pull (pull_notes events run) count

theorem asked_map (f : α → β) (run : Run ε α) (count : Nat) :
    (run.map f).asked count = (run.asked count).map f := by
  induction count generalizing run with
  | zero => rfl
  | succ count ih =>
      rw [asked, pull_map, ih]
      rfl

theorem asked_append_of_le {first : Run ε α} {count : Nat} (h : count ≤ first.results.length)
    (second : Unit → Run ε α) :
    (first.append second).asked count =
      ⟨(first.asked count).log, fun _ => ((first.asked count).run ()).append second⟩ := by
  induction count generalizing first with
  | zero => rfl
  | succ count ih =>
      obtain ⟨value, hvalue⟩ := exists_answer (List.ne_nil_of_length_pos (Nat.zero_lt_of_lt h))
      rw [results_of_pull_some hvalue, List.length_cons] at h
      rw [asked, pull_append_of_some hvalue, ih (Nat.le_of_succ_le_succ h)]
      rfl

theorem asked_append_of_gt (first : Run ε α) (second : Unit → Run ε α) (count : Nat) :
    (first.append second).asked (first.results.length + (count + 1)) =
      ((second ()).asked (count + 1)).behind first.log := by
  induction hresults : first.results generalizing first with
  | nil =>
      have hnone : first.pull.answer = none := by
        cases hanswer : first.pull.answer with
        | none => rfl
        | some value => simp [results_of_pull_some hanswer] at hresults
      rw [List.length_nil, Nat.zero_add]
      exact asked_of_pull (pull_append_of_none hnone second) count
  | cons value values ih =>
      obtain ⟨found, hfound⟩ := exists_answer (hresults ▸ List.cons_ne_nil value values)
      rw [results_of_pull_some hfound, List.cons.injEq] at hresults
      rw [List.length_cons, Nat.succ_add, asked, pull_append_of_some hfound, ih _ hresults.2,
        Attempt.behind_behind, ← log_of_pull]

theorem asked_bind_of_le {run : Run ε α} {value : α} (h : run.pull.answer = some value)
    {f : α → Run ε β} {count : Nat} (hle : count + 1 ≤ (f value).results.length) :
    (run.bind f).asked (count + 1) =
      ⟨run.pull.log ++ ((f value).asked (count + 1)).log,
        fun _ => (((f value).asked (count + 1)).run ()).append fun _ =>
          (run.pull.rest ()).bind f⟩ := by
  rw [asked_of_pull (pull_bind_of_some h f) count, asked_append_of_le hle]
  rfl

theorem asked_bind_of_gt {run : Run ε α} {value : α} (h : run.pull.answer = some value)
    (f : α → Run ε β) (count : Nat) :
    (run.bind f).asked ((f value).results.length + (count + 1)) =
      (((run.pull.rest ()).bind f).asked (count + 1)).behind
        (run.pull.log ++ (f value).log) := by
  rw [← Nat.add_assoc, asked_of_pull (pull_bind_of_some h f), Nat.add_assoc, asked_append_of_gt,
    Attempt.behind_behind]

theorem asked_succ (run : Run ε α) (count : Nat) :
    ((run.asked (count + 1)).run ()) = ((run.asked count).run ()).pull.rest () := by
  induction count generalizing run with
  | zero => rfl
  | succ count ih => exact ih (run.pull.rest ())

theorem getElem?_results (run : Run ε α) (count : Nat) :
    run.results[count]? = ((run.asked count).run ()).pull.answer := by
  induction count generalizing run with
  | zero =>
      cases hanswer : run.pull.answer with
      | none => simp [asked, hanswer, results_of_pull_none hanswer]
      | some value => simp [asked, hanswer, results_of_pull_some hanswer]
  | succ count ih =>
      change _ = (((run.pull.rest ()).asked count).run ()).pull.answer
      rw [← ih]
      cases hanswer : run.pull.answer with
      | none =>
          rw [results_of_pull_none hanswer, pull_of_none hanswer]
          rfl
      | some value => rw [results_of_pull_some hanswer, List.getElem?_cons_succ]

theorem length_take_succ (run : Run ε α) (count : Nat) :
    (run.results.take (count + 1)).length =
      run.pull.answer.toList.length + ((run.pull.rest ()).results.take count).length := by
  cases hanswer : run.pull.answer with
  | none =>
      rw [results_of_pull_none hanswer, pull_of_none hanswer, results, List.take_nil, List.take_nil]
      rfl
  | some value =>
      rw [results_of_pull_some hanswer, List.take_succ_cons, List.length_cons, Nat.add_comm]
      rfl

theorem asked_of_gt {run : Run ε α} {count : Nat} (h : run.results.length < count) :
    run.asked count = ⟨run.log, fun _ => done⟩ := by
  obtain ⟨more, rfl⟩ : ∃ more, count = run.results.length + (more + 1) :=
    ⟨count - run.results.length - 1, by omega⟩
  have happend := asked_append_of_gt run (fun _ => done) more
  rw [append_done, asked_done] at happend
  rw [happend, Attempt.behind, List.append_nil]

theorem takeAfter_eq (logs : List (List ε)) (found : List α) (count : Nat)
    (run : Unit → Run ε α) :
    takeAfter logs found count run =
      ⟨found.reverse ++ (run ()).results.take count, decide ((run ()).results.length < count),
        logs.reverse.flatten ++ ((run ()).asked count).log⟩ := by
  induction count generalizing logs found run with
  | zero => simp [takeAfter, asked]
  | succ count ih =>
      cases hanswer : (run ()).pull.answer with
      | none =>
          have hlog : (run ()).pull.log = (run ()).log := by rw [pull_of_none hanswer]
          rw [asked_of_none hanswer, results_of_pull_none hanswer]
          simp [takeAfter, hanswer, hlog]
      | some value =>
          rw [results_of_pull_some hanswer]
          simp [takeAfter, hanswer, ih, asked, Attempt.behind]

end Run

namespace Attempt

/-- The attempt behind its first `count` requests, with all that was logged from its start on. -/
def asked (count : Nat) (attempt : Attempt ε α) : Attempt ε α :=
  ((attempt.run ()).asked count).behind attempt.log

theorem log_toRun (attempt : Attempt ε α) :
    attempt.toRun.log = attempt.log ++ (attempt.run ()).log :=
  Run.log_notes attempt.log attempt.run

theorem asked_toRun (attempt : Attempt ε α) (count : Nat) :
    attempt.toRun.asked (count + 1) = attempt.asked (count + 1) :=
  Run.asked_notes attempt.log attempt.run count

theorem asked_of_gt {attempt : Attempt ε α} {count : Nat} (h : attempt.results.length < count) :
    attempt.asked count = ⟨attempt.toRun.log, fun _ => .done⟩ := by
  rw [asked, Run.asked_of_gt h, log_toRun]
  rfl

theorem asked_map (f : α → β) (attempt : Attempt ε α) (count : Nat) :
    (attempt.map f).asked count = (attempt.asked count).map f := by
  rw [asked, map, Run.asked_map]
  rfl

theorem take_eq (attempt : Attempt ε α) (count : Nat) :
    attempt.take count =
      ⟨attempt.results.take count, decide (attempt.results.length < count),
        (attempt.asked count).log⟩ := by
  rw [take, Run.takeAfter_eq, List.reverse_nil, List.nil_append, List.reverse_singleton,
    List.flatten_singleton]
  rfl

theorem asked_append_of_le {first : Attempt ε α} {count : Nat}
    (h : count ≤ first.results.length) (second : Unit → Attempt ε α) :
    (first.append second).asked count = (first.asked count).append second := by
  rw [asked, append, Run.asked_append_of_le h]
  rfl

theorem asked_append_of_gt (first : Attempt ε α) (second : Unit → Attempt ε α) (count : Nat) :
    (first.append second).asked (first.results.length + (count + 1)) =
      ((second ()).asked (count + 1)).behind first.toRun.log := by
  rw [asked, append, results, Run.asked_append_of_gt]
  change (((second ()).toRun.asked (count + 1)).behind (first.run ()).log).behind first.log = _
  rw [asked_toRun, behind_behind, log_toRun]

theorem take_append_of_le {first : Attempt ε α} {count : Nat}
    (h : count ≤ first.results.length) (second : Unit → Attempt ε α) :
    (first.append second).take count = first.take count := by
  have hended : decide ((first.append second).results.length < count) =
      decide (first.results.length < count) := by
    rw [results_append, List.length_append]
    exact decide_eq_decide.mpr (by omega)
  rw [take_eq, take_eq, hended, asked_append_of_le h, results_append,
    List.take_append_of_le_length h]
  rfl

theorem take_append_of_gt (first : Attempt ε α) (second : Unit → Attempt ε α) (count : Nat) :
    (first.append second).take (first.results.length + (count + 1)) =
      ⟨first.results ++ ((second ()).take (count + 1)).results,
        ((second ()).take (count + 1)).ended,
        first.toRun.log ++ ((second ()).take (count + 1)).log⟩ := by
  have hended : decide ((first.append second).results.length <
      first.results.length + (count + 1)) =
        decide ((second ()).results.length < count + 1) := by
    rw [results_append, List.length_append]
    exact decide_eq_decide.mpr Nat.add_lt_add_iff_left
  rw [take_eq, take_eq, hended, asked_append_of_gt, results_append, List.take_length_add_append]
  rfl

end Attempt

end ScanParse
