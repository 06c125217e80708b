/-!
A text without its control sequences: what a terminal that ignores them would show. Control
characters that are no line end, tab or form feed are left out as well.
-/

namespace ScanParse.Text

/-- Where a reader stands with respect to control sequences. -/
inductive Stage where
  /-- Outside of every sequence. -/
  | ground
  /-- Behind the escape character. -/
  | escape
  /-- Behind the escape character and further signs. -/
  | intermediate
  /-- In the parameters of a sequence that a letter or sign ends. -/
  | parameters
  /-- At the start of a device string. -/
  | device
  /-- In the parameters of a device string. -/
  | deviceParameters
  /-- Behind the parameters of a device string. -/
  | deviceIntermediate
  /-- In a string that the string terminator ends. -/
  | string
  /-- In a string that a bell ends. -/
  | title
deriving DecidableEq, Repr

/-- The character that starts a control sequence. -/
def escapeChar : Char :=
  '\x1b'

/-- A character that cancels the control sequence around it. -/
def cancels (c : Char) : Bool :=
  c == '\x18' || c == '\x1a'

/-- The code of a character lies between two others. -/
def between (low high : Nat) (c : Char) : Bool :=
  low ≤ c.toNat && c.toNat ≤ high

/-- The encoding of a character has the byte of the string terminator, `0x9C`, behind its first
byte. -/
def holdsTerminator (c : Char) : Bool :=
  let code := c.toNat
  (0x80 ≤ code && code % 64 == 0x1C) || (0x800 ≤ code && code / 64 % 64 == 0x1C) ||
    (0x10000 ≤ code && code / 4096 % 64 == 0x1C)

/-- A control character that moves the place where the next one is shown. -/
def isMotion (c : Char) : Bool :=
  c == '\t' || c == '\n' || c == '\x0c' || c == '\r'

/-- A character that is shown outside of control sequences. -/
def isShown (c : Char) : Bool :=
  isMotion c || (0x20 ≤ c.toNat && c != '\x7f')

namespace Stage

/-- The stage behind the character that follows the escape character. -/
def afterEscape (c : Char) : Stage :=
  if c = '[' then parameters
  else if c = ']' then title
  else if c = 'P' then device
  else if c = 'X' ∨ c = '^' ∨ c = '_' then string
  else if between 0x20 0x2F c then intermediate
  else if between 0x30 0x7E c then ground
  else escape

def next (stage : Stage) (c : Char) : Stage :=
  if c = escapeChar then escape
  else if cancels c then ground
  else
    match stage with
    | ground => ground
    | escape => afterEscape c
    | intermediate => if between 0x30 0x7E c then ground else intermediate
    | parameters => if between 0x40 0x7E c then ground else parameters
    | device =>
        if between 0x20 0x2F c then deviceIntermediate
        else if between 0x30 0x3F c then deviceParameters
        else if between 0x40 0x7E c then string
        else device
    | deviceParameters =>
        if between 0x20 0x2F c then deviceIntermediate
        else if between 0x3C 0x7E c then string
        else deviceParameters
    | deviceIntermediate => if between 0x30 0x7E c then string else deviceIntermediate
    | string => if holdsTerminator c then ground else string
    | title => if c = '\x07' then ground else title

/-- A character is shown: outside of sequences as it is, within short ones where it moves. -/
def shows (stage : Stage) (c : Char) : Bool :=
  match stage with
  | ground => isShown c
  | escape | intermediate | parameters => isMotion c
  | _ => false

end Stage

/-- The shown characters of a text. Once a character was shown, `showing` is set: the characters
behind it are shown as well, up to the next that is not shown outside of sequences, and an
unfinished sequence goes on there. -/
def shownFrom (showing : Bool) (stage : Stage) : List Char → List Char
  | [] => []
  | c :: rest =>
      if showing ∧ isShown c = true then
        c :: shownFrom true (if c.toNat < 0x80 then stage else .ground) rest
      else if stage.shows c then c :: shownFrom true stage rest
      else shownFrom false (stage.next c) rest

def plainText (content : String) : String :=
  String.ofList (shownFrom false .ground content.toList)

end ScanParse.Text
