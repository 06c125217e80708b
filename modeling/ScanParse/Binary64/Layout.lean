import ScanParse.Binary64.Shortest

namespace ScanParse.Binary64

/-- The powers of ten of the first digit, from `least` and below `bound`, at which a number is
written without an exponent. -/
structure Window where
  least : Int
  bound : Int

structure Layout where
  /-- Where no exponent is written; without a window, never. -/
  positional : Option Window
  /-- What is written behind the digits of a whole number that has no exponent. -/
  wholeEnd : String

/-- Numbers as they are listed: never an exponent, and whole numbers end with their last digit. -/
def Layout.listed : Layout :=
  ⟨none, ""⟩

/-- Numbers as they are described: an exponent below 0.0001 and from 10 ^ 16, and a zero behind the
point of whole numbers. -/
def Layout.described : Layout :=
  ⟨some ⟨-4, 16⟩, ".0"⟩

/-- The digits of a decimal without trailing zeros, and the power of ten of the first digit. -/
def Decimal.significant (decimal : Decimal) : List Char × Int :=
  let digits := Nat.toDigits 10 decimal.digits
  let kept := (digits.reverse.dropWhile (· == '0')).reverse
  (if kept.isEmpty then ['0'] else kept, decimal.scale + digits.length - 1)

/-- Digits around a point, where `leading` is the power of ten of the first one. -/
def Layout.arrange (layout : Layout) (digits : List Char) (leading : Int) : String :=
  if leading < 0 then
    "0." ++ String.ofList (List.replicate (-leading - 1).toNat '0' ++ digits)
  else
    let whole := leading.toNat + 1
    if digits.length ≤ whole then
      String.ofList (digits ++ List.replicate (whole - digits.length) '0') ++ layout.wholeEnd
    else
      String.ofList (digits.take whole) ++ "." ++ String.ofList (digits.drop whole)

def exponential (digits : List Char) (leading : Int) : String :=
  let point :=
    match digits with
    | first :: second :: rest => first :: '.' :: second :: rest
    | digits => digits
  String.ofList point ++ "e" ++ toString leading

def Layout.finite (layout : Layout) (significand : Nat) (exponent : Int) : String :=
  let (digits, leading) := (shortest significand exponent).significant
  match layout.positional with
  | none => layout.arrange digits leading
  | some window =>
      if significand = 0 ∨ (window.least ≤ leading ∧ leading < window.bound) then
        layout.arrange digits leading
      else exponential digits leading

def Layout.write (layout : Layout) (x : Binary64) : String :=
  let sign := if x.negative then "-" else ""
  match x.magnitude with
  | .nan => "NaN"
  | .infinite => sign ++ "inf"
  | .finite significand exponent => sign ++ layout.finite significand exponent

/-- The bit pattern as sixteen hexadecimal digits. -/
def hexadecimal (x : Binary64) : String :=
  let digits := Nat.toDigits 16 x.bits.toNat
  String.ofList (List.replicate (16 - digits.length) '0' ++ digits)

end ScanParse.Binary64
