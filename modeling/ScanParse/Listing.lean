import ScanParse.Text.Style
import ScanParse.Token.Basic

namespace ScanParse

open ScanParse.Text

structure Listing where
  tokens : List Token
  positions : Bool
  skipWhitespace : Bool
  color : Bool

namespace Listing

def visible (listing : Listing) : List Token :=
  listing.tokens.filter fun token => !(listing.skipWhitespace && token.isWhitespace)

/-- The content of a token beyond its kind; a float shows its text and its value. -/
def payload : TokenKind → String
  | .float value spelling =>
      spelling ++ " (" ++ Binary64.Layout.listed.write value ++ ")"
  | .int value => TokenKind.toText (.int value)
  | .identifier name => name
  | .symbol characters => characters
  | _ => ""

def line (listing : Listing) (token : Token) : String :=
  let name := styledField listing.color .cyan 24 token.kind.name
  let content := payload token.kind
  if listing.positions then
    name ++ styledField listing.color .bold 16 content ++ " " ++
      styledField listing.color .dim 0 token.position.details
  else name ++ styledField listing.color .bold 0 content

/-- The lines of all tokens that are shown, with no line end behind the last. -/
def toText (listing : Listing) : String :=
  "\n".intercalate (listing.visible.map listing.line)

end Listing

end ScanParse
