import ScanParse.Parse.Basic

/-!
A family of parsers indexed by `ι` that refer to each other, each with values of its own type, is
the limit of its unfoldings: every reference is looked up only when it is started, and a reference
below the given depth fails.
-/

namespace ScanParse.Parser

variable {ι ε τ : Type} {ρ : ι → Type}

/-- The family that a body describes, unfolded to the given depth. -/
def unfold (body : ((i : ι) → Parser ε τ (ρ i)) → (i : ι) → Parser ε τ (ρ i)) :
    Nat → (i : ι) → Parser ε τ (ρ i)
  | 0, _ => fail
  | depth + 1, index => delay [] fun _ => body (unfold body depth) index

@[simp] theorem results_unfold_zero
    (body : ((i : ι) → Parser ε τ (ρ i)) → (i : ι) → Parser ε τ (ρ i)) (index : ι)
    (input : Input τ) : (unfold body 0 index).results input = [] := by
  simp [unfold]

@[simp] theorem results_unfold_succ
    (body : ((i : ι) → Parser ε τ (ρ i)) → (i : ι) → Parser ε τ (ρ i)) (depth : Nat) (index : ι)
    (input : Input τ) :
    (unfold body (depth + 1) index).results input =
      (body (unfold body depth) index).results input := by
  simp [unfold]

end ScanParse.Parser
