import ScanParse.Text.Blank

/-!
A pattern is a regular expression over text. In its modes it takes blanks for decoration, takes
letters in either case, or speaks about bytes in place of characters.
-/

namespace ScanParse.Pattern

open ScanParse.Text

/-- How the signs of a pattern are taken. -/
structure Mode where
  /-- Letters stand for both of their cases. -/
  ignoresCase : Bool
  /-- Signs stand for characters; otherwise they stand for bytes. -/
  unicode : Bool
  /-- Blanks and comments may stand between signs. -/
  spaced : Bool
deriving DecidableEq, Repr

namespace Mode

/-- The mode at the front of a pattern. -/
def initial : Mode :=
  ⟨false, true, false⟩

def flags : List Char :=
  ['i', 'm', 's', 'U', 'u', 'R', 'x']

/-- Letters behind a hyphen switch off what they stand for, others switch it on. -/
def switched (mode : Mode) (letters : List Char) : Mode :=
  let on := letters.takeWhile (· != '-')
  let off := letters.dropWhile (· != '-')
  let value (letter : Char) (before : Bool) : Bool :=
    on.contains letter || (before && !off.contains letter)
  ⟨value 'i' mode.ignoresCase, value 'u' mode.unicode, value 'x' mode.spaced⟩

/-- Letters can be given together: none stands twice, and no hyphen twice or last. -/
def areFlags (letters : List Char) : Bool :=
  letters.all (fun c => c == '-' || flags.contains c) && decide letters.Nodup &&
    letters.getLast? != some '-'

end Mode

/-- What stands behind blanks and comments. A comment goes from a number sign to the end of its
line. -/
def skipBlanks (inComment : Bool) : List Char → List Char
  | [] => []
  | c :: rest =>
      if inComment then skipBlanks (c != '\n') rest
      else if isBlank c then skipBlanks false rest
      else if c = '#' then skipBlanks true rest
      else c :: rest

theorem length_skipBlanks_le (inComment : Bool) (cs : List Char) :
    (skipBlanks inComment cs).length ≤ cs.length := by
  induction cs generalizing inComment with
  | nil => simp [skipBlanks]
  | cons c rest ih =>
      simp only [skipBlanks]
      split
      · exact Nat.le_succ_of_le (ih _)
      · split
        · exact Nat.le_succ_of_le (ih _)
        · split
          · exact Nat.le_succ_of_le (ih _)
          · exact Nat.le_refl _

namespace Mode

/-- What stands behind blanks and comments, where these are decoration. -/
def skip (mode : Mode) (cs : List Char) : List Char :=
  if mode.spaced then skipBlanks false cs else cs

theorem length_skip_le (mode : Mode) (cs : List Char) : (mode.skip cs).length ≤ cs.length := by
  unfold skip
  split
  · exact length_skipBlanks_le false cs
  · exact Nat.le_refl _

/-- The sign ahead. Blanks are passed over, and one number sign, but no comment. -/
def ahead? (mode : Mode) (cs : List Char) : Option Char :=
  if mode.spaced then
    match cs.dropWhile isBlank with
    | '#' :: rest => (rest.dropWhile isBlank).head?
    | rest => rest.head?
  else cs.head?

end Mode

end ScanParse.Pattern
