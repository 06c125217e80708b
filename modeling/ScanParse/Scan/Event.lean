import ScanParse.Log.Record
import ScanParse.Token.Basic

namespace ScanParse

/-- A scan met a character at which no token begins. -/
structure Unrecognized where
  found : Char
  offset : Nat
  line : Nat
  column : Nat
deriving DecidableEq, Repr

/-- What is said about the character; lines and columns are counted from one there. -/
def Unrecognized.message (failure : Unrecognized) : String :=
  "unrecognized item " ++ Text.quotedChar failure.found ++ " at line " ++
    toString (failure.line + 1) ++ ", column " ++ toString (failure.column + 1)

inductive ScanEvent where
  /-- A token was recognized. -/
  | recognized (token : Token)
  /-- The scan failed after so many tokens. -/
  | aborted (failure : Unrecognized) (scanned : Nat)
  /-- The scan reached the end with so many tokens on so many lines. -/
  | finished (count lines : Nat)

def ScanEvent.logRecord : ScanEvent → LogRecord
  | recognized token =>
      ⟨.trace, "lexcomb::lexer", "token",
        [("kind", .quoted token.kind.name), ("position", .plain token.position.toText)]⟩
  | aborted failure scanned =>
      ⟨.debug, "lexcomb::lexer", "tokenizing aborted",
        [("err", .plain failure.message), ("scanned", .number scanned)]⟩
  | finished count lines =>
      ⟨.debug, "lexcomb::lexer", "tokenizing finished",
        [("count", .number count), ("lines", .number lines)]⟩

end ScanParse
