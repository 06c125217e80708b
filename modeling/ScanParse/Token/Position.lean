namespace ScanParse

structure Span where
  start : Nat
  stop : Nat
deriving DecidableEq, Repr, Inhabited

namespace Span

/-- The number of offsets in a range; a range that stops before its start has none. -/
def length (span : Span) : Nat :=
  span.stop - span.start

def toText (span : Span) : String :=
  toString span.start ++ ".." ++ toString span.stop

end Span

/-- Where a token stands: its range in the source, its line, and its range in that line. -/
structure Position where
  range : Span
  line : Nat
  columns : Span
deriving DecidableEq, Repr

namespace Position

/-- The position of tokens that come from no source. -/
def origin : Position :=
  ⟨⟨0, 0⟩, 0, ⟨0, 0⟩⟩

instance : Inhabited Position := ⟨origin⟩

/-- The two ranges of a position differ in length. -/
structure LengthMismatch where
  range : Nat
  columns : Nat
deriving DecidableEq, Repr

/-- What is said about ranges of different lengths. -/
def LengthMismatch.message (mismatch : LengthMismatch) : String :=
  "assertion `left == right` failed: range and columns must have equal length\n  left: " ++
    toString mismatch.range ++ "\n right: " ++ toString mismatch.columns

/-- The position with the given ranges, which have to be of equal length. -/
def make (range : Span) (line : Nat) (columns : Span) : Except LengthMismatch Position :=
  if range.length = columns.length then .ok ⟨range, line, columns⟩
  else .error ⟨range.length, columns.length⟩

/-- The short form: the range in the source. -/
def toText (position : Position) : String :=
  position.range.toText

/-- The long form: range, line and columns. -/
def details (position : Position) : String :=
  "range: " ++ position.range.toText ++ "; line: " ++ toString position.line ++
    "; columns: " ++ position.columns.toText

/-- The fields of a position, by name. -/
def describe (position : Position) : String :=
  "SourcePosition \x7b range: " ++ position.range.toText ++ ", line: " ++
    toString position.line ++ ", columns: " ++ position.columns.toText ++ " \x7d"

instance : ToString Position := ⟨toText⟩

end Position

end ScanParse
