import ScanParse.Parse.Basic

namespace ScanParse

namespace Run

variable {ε α : Type}

/-- Asked again and again, a run gives these results, and then its end. -/
inductive Gives : Run ε α → List α → Prop
  | ended {run : Run ε α} : run.pull.answer = none → Gives run []
  | next {run : Run ε α} {value : α} {values : List α} :
      run.pull.answer = some value → Gives (run.pull.rest ()) values →
        Gives run (value :: values)

theorem results_of_pull (run : Run ε α) :
    run.results = run.pull.answer.toList ++ (run.pull.rest ()).results := by
  induction run with
  | done => rfl
  | note event rest ih => simpa [results] using ih ()
  | result value rest ih => rfl

theorem results_of_pull_none {run : Run ε α} (h : run.pull.answer = none) :
    run.results = [] := by
  induction run with
  | done => rfl
  | note event rest ih => exact ih () (by simpa using h)
  | result value rest ih => simp at h

theorem gives_note {event : ε} {rest : Unit → Run ε α} {values : List α}
    (h : (rest ()).Gives values) : (note event rest).Gives values := by
  cases h with
  | ended hnone => exact .ended (by simpa using hnone)
  | next hsome hvalues => exact .next (by simpa using hsome) (by simpa using hvalues)

theorem gives_results (run : Run ε α) : run.Gives run.results := by
  induction run with
  | done => exact .ended rfl
  | note event rest ih => exact gives_note (ih ())
  | result value rest ih => exact .next rfl (ih ())

theorem gives_iff {run : Run ε α} {values : List α} :
    run.Gives values ↔ run.results = values := by
  constructor
  · intro h
    induction h with
    | ended hnone => exact results_of_pull_none hnone
    | next hsome hvalues ih => rw [results_of_pull, hsome, ih]; rfl
  · rintro rfl
    exact gives_results run

end Run

/-- Once started, an attempt gives these results on request, and then its end. -/
def Attempt.Gives {ε α : Type} (attempt : Attempt ε α) (values : List α) : Prop :=
  (attempt.run ()).Gives values

theorem Parser.start_gives_iff {ε τ α : Type} {p : Parser ε τ α} {input : Input τ}
    {values : List (Match τ α)} :
    (p.start input).Gives values ↔ p.results input = values :=
  Run.gives_iff

end ScanParse
