import ScanParse.Scan.Event
import ScanParse.Scan.Lexeme

/-!
A scan cuts a source into tokens from the left, and gives each its position. It stops at the first
character at which no token begins, and then gives no tokens.
-/

namespace ScanParse

/-- Where a scan stands: the offset, the line, and the offset at which that line begins. -/
structure Cursor where
  offset : Nat
  line : Nat
  lineStart : Nat
deriving DecidableEq, Repr

namespace Cursor

def start : Cursor :=
  ⟨0, 0, 0⟩

/-- The position of a lexeme that stands here. -/
def position (cursor : Cursor) (lexeme : Lexeme) : Position :=
  let stop := cursor.offset + lexeme.width
  ⟨⟨cursor.offset, stop⟩, cursor.line, ⟨cursor.offset - cursor.lineStart, stop - cursor.lineStart⟩⟩

/-- Behind a lexeme that stands here; a line ends with its newline. -/
def advance (cursor : Cursor) (lexeme : Lexeme) : Cursor :=
  let stop := cursor.offset + lexeme.width
  match lexeme.kind with
  | .newline => ⟨stop, cursor.line + 1, stop⟩
  | _ => ⟨stop, cursor.line, cursor.lineStart⟩

/-- The failure at a character that stands here. -/
def failure (cursor : Cursor) (found : Char) : Unrecognized :=
  ⟨found, cursor.offset, cursor.line, cursor.offset - cursor.lineStart⟩

end Cursor

/-- What a scan comes to, and what it logs. -/
structure Scan where
  outcome : Except Unrecognized (List Token)
  events : List ScanEvent

namespace Scan

/-- Scans the text that stands at a cursor; `tokens` and `events` hold, last first, what came
before. -/
def scanFrom (options : ScanOptions) (cursor : Cursor) (tokens : List Token)
    (events : List ScanEvent) : List Char → Scan
  | [] =>
      ⟨.ok tokens.reverse, (.finished tokens.length (cursor.line + 1) :: events).reverse⟩
  | c :: rest =>
      match _h : Lexeme.read? options (c :: rest) with
      | none =>
          let failure := cursor.failure c
          ⟨.error failure, (.aborted failure tokens.length :: events).reverse⟩
      | some lexeme =>
          let token : Token := ⟨lexeme.kind, cursor.position lexeme⟩
          scanFrom options (cursor.advance lexeme) (token :: tokens) (.recognized token :: events)
            ((c :: rest).drop lexeme.width)
termination_by cs => cs.length
decreasing_by
  have := (Lexeme.width_of_read? _h).1
  simp only [List.length_drop, List.length_cons]
  omega

def ofSource (options : ScanOptions) (source : String) : Scan :=
  scanFrom options .start [] [] source.toList

end Scan

/-- The tokens of a source, or the first character at which none begins. -/
def tokenize (options : ScanOptions) (source : String) : Except Unrecognized (List Token) :=
  (Scan.ofSource options source).outcome

end ScanParse
