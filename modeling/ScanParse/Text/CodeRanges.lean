namespace ScanParse.Text

/-- A set of code points, as inclusive ranges in ascending order. -/
abbrev CodeRanges : Type :=
  List (Nat × Nat)

/-- Membership of a character; the ascending order lets the search stop early. -/
def CodeRanges.contains : CodeRanges → Char → Bool
  | [], _ => false
  | (low, high) :: ranges, c =>
      if c.toNat < low then false
      else if c.toNat ≤ high then true
      else CodeRanges.contains ranges c

end ScanParse.Text
