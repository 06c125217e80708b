import ScanParse.Binary64.Basic

namespace ScanParse.Binary64

/-- The decimal number `digits * 10 ^ scale`. -/
structure Decimal where
  digits : Nat
  scale : Int
deriving DecidableEq, Repr

/-- A positive number with the interval of reals that round to it, as numerators over one
denominator. The ends belong to the interval if the significand is even. -/
structure Rounding where
  low : Nat
  value : Nat
  high : Nat
  denominator : Nat
  closed : Bool

/-- The interval of a positive finite number: half a step to either side, or a quarter of a step
below a power of two, where the numbers below lie closer. -/
def Rounding.of (significand : Nat) (exponent : Int) : Rounding :=
  let below := if significand = twoTo 52 ∧ -1074 < exponent then 1 else 2
  let factor := twoTo (exponent - 2).toNat
  ⟨(4 * significand - below) * factor, 4 * significand * factor, (4 * significand + 2) * factor,
    twoTo (2 - exponent).toNat, significand % 2 == 0⟩

/-- A quotient compared with `digits * 10 ^ scale`: both sides, over a common denominator. -/
def Rounding.sides (interval : Rounding) (numerator digits : Nat) (scale : Int) : Nat × Nat :=
  (numerator * tenTo (-scale).toNat, digits * tenTo scale.toNat * interval.denominator)

def Rounding.admits (interval : Rounding) (decimal : Decimal) : Bool :=
  let (low, middle) := interval.sides interval.low decimal.digits decimal.scale
  let (high, _) := interval.sides interval.high decimal.digits decimal.scale
  if interval.closed then low ≤ middle ∧ middle ≤ high else low < middle ∧ middle < high

/-- The power of ten of the first digit: the greatest that is not above the value. The logarithm
to base two fixes it up to one step. -/
def Rounding.leading (interval : Rounding) : Int :=
  let binary : Int := (interval.value.log2 : Int) - interval.denominator.log2
  let estimate := Int.fdiv (binary * 30103) 100000
  let candidates := [estimate + 1, estimate, estimate - 1]
  let fits (power : Int) : Bool :=
    let (value, ten) := interval.sides interval.value 1 power
    ten ≤ value
  (candidates.find? fits).getD (estimate - 2)

/-- The two neighbours of the value among the decimals with the given scale, the closer one first
and the upper one first where both are equally close; those outside the interval are left out. -/
def Rounding.neighbours (interval : Rounding) (scale : Int) : List Decimal :=
  let (value, unit) := interval.sides interval.value 1 scale
  let lower := value / unit
  let nearerBelow := 2 * (value % unit) < unit
  let ordered := if nearerBelow then [lower, lower + 1] else [lower + 1, lower]
  (ordered.map (⟨·, scale⟩)).filter interval.admits

/-- The shortest decimal of an interval, tried by number of digits; seventeen always suffice. -/
def Rounding.shortest (interval : Rounding) : Decimal :=
  let leading := interval.leading
  let tries := (List.range 17).map fun (extra : Nat) => leading - extra
  (tries.findSome? fun scale => (interval.neighbours scale).head?).getD ⟨0, 0⟩

/-- The shortest decimal of a finite number; that of zero is zero. -/
def shortest (significand : Nat) (exponent : Int) : Decimal :=
  if significand = 0 then ⟨0, 0⟩ else (Rounding.of significand exponent).shortest

end ScanParse.Binary64
