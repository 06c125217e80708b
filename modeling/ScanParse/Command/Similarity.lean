/-!
How alike two words are: by the characters that they share at about the same place, and
by how many of these are out of order.
-/

namespace ScanParse

namespace Similarity

/-- How far apart two characters may stand to be shared. -/
def reach (a b : Nat) : Nat :=
  max a b / 2 - 1

/-- Marks the first unmarked place from `low` on and before `high` that holds the character; places
are counted from `index`. -/
def mark (c : Char) (low high : Nat) : Nat → List (Char × Bool) → Option (List (Char × Bool))
  | _, [] => none
  | index, (d, marked) :: rest =>
      if high ≤ index then none
      else if low ≤ index ∧ d = c ∧ !marked then some ((d, true) :: rest)
      else (mark c low high (index + 1) rest).map ((d, marked) :: ·)

/-- The shared characters in the order of either word; the characters of the first word are counted
from `index`. -/
def shared (reach index : Nat) (found : List Char) (places : List (Char × Bool)) :
    List Char → List Char × List Char
  | [] => (found.reverse, (places.filter (·.2)).map (·.1))
  | c :: rest =>
      match mark c (index - reach) (index + reach + 1) 0 places with
      | some places => shared reach (index + 1) (c :: found) places rest
      | none => shared reach (index + 1) found places rest

/-- The similarity of two words, between zero and one: the mean of the shares of either word and of
the share that is in order, in double precision. -/
def of (a b : String) : Float :=
  let first := a.toList
  let second := b.toList
  if first.isEmpty ∧ second.isEmpty then 1
  else
    let (left, right) :=
      shared (reach first.length second.length) 0 [] (second.map (·, false)) first
    let common := left.length
    if common = 0 then 0
    else
      let moved := ((left.zip right).filter fun (c, d) => c != d).length / 2
      let share (part whole : Nat) : Float := part.toFloat / whole.toFloat
      (share common first.length + share common second.length + share (common - moved) common) / 3

/-- The word that is most similar to the given one, if it is more than `least` similar; of equally
similar ones the last. -/
def closest (least : Float) (word : String) (words : List String) : Option String :=
  let candidates := (words.map fun other => (other, of word other)).filter fun candidate =>
    decide (least < candidate.2)
  (candidates.foldl
    (fun best candidate =>
      match best with
      | none => some candidate
      | some earlier => if candidate.2 < earlier.2 then best else some candidate)
    none).map (·.1)

end Similarity

end ScanParse
