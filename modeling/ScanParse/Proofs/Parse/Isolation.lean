import Mathlib.Data.List.Basic
import ScanParse.Parse.Session

namespace ScanParse.Session

variable {ε τ α β : Type}

/-- The search that a request opens or asks, with so many inputs and behind so many searches. -/
def Step.owner? (inputs opened : Nat) : Step → Option Nat
  | .openInput i => if i < inputs then some opened else none
  | .next k | .rest k => some k
  | .first _ | .complete _ => none

/-- How many searches are open behind a request. -/
def Step.opened (inputs opened : Nat) : Step → Nat
  | .openInput i => if i < inputs then opened + 1 else opened
  | .next _ | .rest _ | .first _ | .complete _ => opened

/-- For each of a sequence of requests, the search that it opens or asks. -/
def owners (inputs : Nat) : Nat → List Step → List (Option Nat)
  | _, [] => []
  | opened, request :: requests =>
      request.owner? inputs opened :: owners inputs (request.opened inputs opened) requests

def entriesOf (k : Nat) : List (Option Nat) → List β → List β
  | owner :: owners, entry :: entries =>
      if owner = some k then entry :: entriesOf k owners entries else entriesOf k owners entries
  | _, _ => []

/-- The request to a search where it is the only one. -/
def Step.alone : Step → Step
  | .next _ => .next 0
  | .rest _ => .rest 0
  | request => request

/-- The answer of a search where it is the only one. -/
def Answer.alone : Answer τ α → Answer τ α
  | .opened _ => .opened 0
  | answer => answer

variable {session : Session ε τ α} {request : Step} {k : Nat}

theorem owner?_openInput {i : Nat} {input : Input τ} (h : session.inputs[i]? = some input) :
    Step.owner? session.inputs.size session.cursors.size (.openInput i) =
      some session.cursors.size := by
  obtain ⟨hi, -⟩ := Array.getElem?_eq_some_iff.mp h
  exact if_pos hi

theorem cursors_step_of_ne (h : request.owner? session.inputs.size session.cursors.size ≠ some k) :
    (session.step request).2.2.cursors[k]? = session.cursors[k]? := by
  cases request with
  | openInput i =>
      simp only [step]
      split
      · rfl
      · rename_i hinput
        rw [owner?_openInput hinput] at h
        have hsize : k ≠ session.cursors.size := fun heq => h (congrArg some heq.symm)
        exact (Array.getElem?_push ..).trans (if_neg hsize)
  | next j | rest j =>
      have hj : j ≠ k := fun heq => h (congrArg some heq)
      simp only [step]
      split
      · rfl
      · exact Array.getElem?_setIfInBounds_ne hj
  | first i | complete i =>
      simp only [step]
      split <;> rfl

end ScanParse.Session
