import ScanParse.Binary64.Layout
import ScanParse.Text.Quoted
import ScanParse.Token.Position

namespace ScanParse

inductive TokenKind where
  /-- A number with a fraction, an exponent or too many digits; `spelling` is its text. -/
  | float (value : Binary64) (spelling : String)
  | int (value : Int64)
  | identifier (name : String)
  | symbol (characters : String)
  | newline
  | tab
  | space
  | lineComment
  | multilineCommentStart
  | multilineCommentEnd
  | openParen
  | closeParen
  | openBracket
  | closeBracket
  | openBrace
  | closeBrace

namespace TokenKind

/-- Two kinds are the same token. Floats are compared by their text, so `1.50` and `1.5` are
different tokens. -/
def same : TokenKind → TokenKind → Bool
  | float _ a, float _ b => a == b
  | int a, int b => a == b
  | identifier a, identifier b => a == b
  | symbol a, symbol b => a == b
  | newline, newline => true
  | tab, tab => true
  | space, space => true
  | lineComment, lineComment => true
  | multilineCommentStart, multilineCommentStart => true
  | multilineCommentEnd, multilineCommentEnd => true
  | openParen, openParen => true
  | closeParen, closeParen => true
  | openBracket, openBracket => true
  | closeBracket, closeBracket => true
  | openBrace, openBrace => true
  | closeBrace, closeBrace => true
  | _, _ => false

instance : BEq TokenKind := ⟨same⟩

/-- How a token is written in a source. -/
def toText : TokenKind → String
  | float _ spelling => spelling
  | int value => toString value.toInt
  | identifier name => name
  | symbol characters => characters
  | newline => "\n"
  | tab => "\t"
  | space => " "
  | lineComment => "//"
  | multilineCommentStart => "/*"
  | multilineCommentEnd => "*/"
  | openParen => "("
  | closeParen => ")"
  | openBracket => "["
  | closeBracket => "]"
  | openBrace => "\x7b"
  | closeBrace => "\x7d"

/-- The name of a kind in listings. -/
def name : TokenKind → String
  | float _ _ => "float"
  | int _ => "int"
  | identifier _ => "identifier"
  | symbol _ => "symbol"
  | newline => "newline"
  | tab => "tab"
  | space => "space"
  | lineComment => "line-comment"
  | multilineCommentStart => "multiline-comment-start"
  | multilineCommentEnd => "multiline-comment-end"
  | openParen => "open-paren"
  | closeParen => "close-paren"
  | openBracket => "open-bracket"
  | closeBracket => "close-bracket"
  | openBrace => "open-brace"
  | closeBrace => "close-brace"

/-- A kind by its constructor and fields. -/
def describe : TokenKind → String
  | float value spelling =>
      "Float \x7b value: " ++ Binary64.Layout.described.write value ++ ", original: " ++
        Text.quotedText spelling ++ " \x7d"
  | int value => "Int(" ++ toString value.toInt ++ ")"
  | identifier name => "Identifier(" ++ Text.quotedText name ++ ")"
  | symbol characters => "Symbol(" ++ Text.quotedText characters ++ ")"
  | newline => "Newline"
  | tab => "Tab"
  | space => "Space"
  | lineComment => "LineComment"
  | multilineCommentStart => "MultilineCommentStart"
  | multilineCommentEnd => "MultilineCommentEnd"
  | openParen => "OpenParen"
  | closeParen => "CloseParen"
  | openBracket => "OpenBracket"
  | closeBracket => "CloseBracket"
  | openBrace => "OpenBrace"
  | closeBrace => "CloseBrace"

/-- The kind without a payload that has the given name. -/
def ofName? (name : String) : Option TokenKind :=
  [newline, tab, space, lineComment, multilineCommentStart, multilineCommentEnd, openParen,
    closeParen, openBracket, closeBracket, openBrace, closeBrace].find? (·.name == name)

instance : ToString TokenKind := ⟨toText⟩

end TokenKind

/-- A kind together with where it was found. -/
structure Token where
  kind : TokenKind
  position : Position

namespace Token

/-- A token without a source, for use as a pattern. -/
def ofKind (kind : TokenKind) : Token :=
  ⟨kind, .origin⟩

/-- Tokens are compared by kind alone, so a pattern matches wherever it stands. -/
instance : BEq Token := ⟨fun a b => a.kind == b.kind⟩

/-- A token that only separates others within a line. -/
def isWhitespace (token : Token) : Bool :=
  match token.kind with
  | .tab => true
  | .space => true
  | _ => false

/-- How a token is written in a source. -/
def toText (token : Token) : String :=
  token.kind.toText

/-- The fields of a token, by name. -/
def describe (token : Token) : String :=
  "Token \x7b kind: " ++ token.kind.describe ++ ", position: " ++ token.position.describe ++
    " \x7d"

instance : ToString Token := ⟨toText⟩

/-- The text that a list of tokens stands for. -/
def regenerate (tokens : List Token) : String :=
  String.join (tokens.map toText)

end Token

end ScanParse
