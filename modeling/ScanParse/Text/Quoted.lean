import ScanParse.Text.Extending
import ScanParse.Text.Printable

namespace ScanParse.Text

/-- The escape that names a character by its code point. -/
def codeEscape (c : Char) : List Char :=
  ['\\', 'u', '{'] ++ Nat.toDigits 16 c.toNat ++ ['}']

/-- The form of a character between the given quotes. -/
def escaped (quote c : Char) : List Char :=
  if c = '\x00' then ['\\', '0']
  else if c = '\t' then ['\\', 't']
  else if c = '\r' then ['\\', 'r']
  else if c = '\n' then ['\\', 'n']
  else if c = '\\' ∨ c = quote then ['\\', c]
  else if isExtending c ∨ ¬ isPrintable c then codeEscape c
  else [c]

def quotedBy (quote : Char) (content : List Char) : String :=
  String.ofList (quote :: content.flatMap (escaped quote) ++ [quote])

def quotedChar (c : Char) : String :=
  quotedBy '\'' [c]

def quotedText (content : String) : String :=
  quotedBy '"' content.toList

end ScanParse.Text
