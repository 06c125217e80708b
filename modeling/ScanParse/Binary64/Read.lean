import ScanParse.Binary64.Basic
import ScanParse.Text.Numeral

namespace ScanParse.Binary64

open ScanParse.Text

/-- The number closest to an unsigned numeral. -/
def ofNumeral (negative : Bool) (numeral : Numeral) : Binary64 :=
  ofDecimal negative numeral.digits numeral.scale

/-- The number that a text without a sign denotes: a numeral, or a name in letters of either
case. -/
def ofUnsigned? (negative : Bool) (cs : List Char) : Option Binary64 :=
  let name := String.ofList (cs.map Char.toLower)
  if name = "nan" then some (nan negative)
  else if name = "inf" ∨ name = "infinity" then some (infinity negative)
  else
    match Numeral.read? cs with
    | some numeral => if numeral.width = cs.length then some (ofNumeral negative numeral) else none
    | none => none

def ofText? (content : String) : Option Binary64 :=
  match content.toList with
  | '-' :: cs => ofUnsigned? true cs
  | '+' :: cs => ofUnsigned? false cs
  | cs => ofUnsigned? false cs

end ScanParse.Binary64
