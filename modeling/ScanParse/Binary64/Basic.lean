import ScanParse.Power

/-!
A number is its bit pattern. A finite number is a significand times a power of two, and every
computation on it is exact arithmetic of natural numbers.
-/

namespace ScanParse

/-- A floating point number with 53 bits of precision, by its bit pattern. -/
structure Binary64 where
  bits : UInt64
deriving DecidableEq, Repr, Inhabited

namespace Binary64

/-- What a bit pattern stands for, its sign apart. -/
inductive Magnitude where
  | nan
  | infinite
  /-- The number `significand * 2 ^ exponent`. -/
  | finite (significand : Nat) (exponent : Int)
deriving DecidableEq, Repr

/-- The sign bit is set. -/
def negative (x : Binary64) : Bool :=
  x.bits.toNat / twoTo 63 == 1

/-- The bits between the sign and the fraction. -/
def exponentField (x : Binary64) : Nat :=
  x.bits.toNat / twoTo 52 % twoTo 11

def fractionField (x : Binary64) : Nat :=
  x.bits.toNat % twoTo 52

def magnitude (x : Binary64) : Magnitude :=
  if x.exponentField = 2047 then
    if x.fractionField = 0 then .infinite else .nan
  else if x.exponentField = 0 then .finite x.fractionField (-1074)
  else .finite (twoTo 52 + x.fractionField) (x.exponentField - 1075)

/-- The number with the given sign bit and the given bits behind it. -/
def ofSignAndRest (negative : Bool) (rest : Nat) : Binary64 :=
  ⟨UInt64.ofNat ((if negative then twoTo 63 else 0) + rest)⟩

def zero (negative : Bool) : Binary64 :=
  ofSignAndRest negative 0

def infinity (negative : Bool) : Binary64 :=
  ofSignAndRest negative (2047 * twoTo 52)

/-- The quiet number without a value, of either sign. -/
def nan (negative : Bool) : Binary64 :=
  ofSignAndRest negative (2047 * twoTo 52 + twoTo 51)

/-- A quotient rounded to the nearest natural number, a half to the even neighbour. -/
def roundQuotient (numerator denominator : Nat) : Nat :=
  let floor := numerator / denominator
  let rest := 2 * (numerator % denominator)
  if rest < denominator then floor
  else if denominator < rest then floor + 1
  else floor + floor % 2

/-- The number closest to a positive quotient, ties to the even significand. The exponent is the
one at which the quotient has 53 bits, or the least one; too large quotients are infinite. -/
def ofQuotient (negative : Bool) (numerator denominator : Nat) : Binary64 :=
  let scaled (exponent : Int) : Nat × Nat :=
    if 0 ≤ exponent then (numerator, denominator * twoTo exponent.toNat)
    else (numerator * twoTo (-exponent).toNat, denominator)
  let estimate : Int := (numerator.log2 : Int) - denominator.log2 - 53
  let (top, bottom) := scaled estimate
  let exact := if top / bottom < twoTo 53 then estimate else estimate + 1
  let exponent := max exact (-1074)
  let (top, bottom) := scaled exponent
  let rest := (exponent + 1074).toNat * twoTo 52 + roundQuotient top bottom
  if rest < 2047 * twoTo 52 then ofSignAndRest negative rest else infinity negative

/-- The number closest to `digits * 10 ^ scale`. Outside the range of magnitudes that any number
has, the power of ten is not computed. -/
def ofDecimal (negative : Bool) (digits : Nat) (scale : Int) : Binary64 :=
  let leading : Int := scale + (Nat.toDigits 10 digits).length
  if digits = 0 ∨ leading < -330 then zero negative
  else if 330 < leading then infinity negative
  else if 0 ≤ scale then ofQuotient negative (digits * tenTo scale.toNat) 1
  else ofQuotient negative digits (tenTo (-scale).toNat)

end Binary64

end ScanParse
