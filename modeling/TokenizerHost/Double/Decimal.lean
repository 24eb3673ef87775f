import TokenizerHost.Double

namespace TokenizerHost.Double

/-- A decimal `digits * 10 ^ exponent`. -/
structure Decimal where
  digits : Nat
  exponent : Int
  deriving DecidableEq, Repr

/-- A number and the ends of its rounding interval as numerators over `denominator`. -/
structure Interval where
  value : Nat
  low : Nat
  high : Nat
  denominator : Nat
  closed : Bool
  deriving Repr

/-- The interval of a finite positive number. Below a power of two the gap is half as wide. -/
def interval (x : Double) : Interval :=
  let m := x.significand
  let narrow := m == 0x10000000000000 && 1 < x.scale
  let step := Nat.pow 2 (x.scale - 1)
  { value := 4 * m * step
    low := (4 * m - if narrow then 1 else 2) * step
    high := (4 * m + 2) * step
    denominator := Nat.pow 2 1076
    closed := m % 2 == 0 }

namespace Interval

/-- Numerator and denominator of `digits * 10 ^ exponent`, over the interval's denominator. -/
private def scaled (i : Interval) (d : Decimal) : Nat × Nat :=
  (d.digits * Nat.pow 10 d.exponent.toNat * i.denominator, Nat.pow 10 (-d.exponent).toNat)

def contains (i : Interval) (d : Decimal) : Bool :=
  let (n, k) := i.scaled d
  if i.closed then i.low * k ≤ n && n ≤ i.high * k else i.low * k < n && n < i.high * k

/-- The least `k` with `value < denominator * 10 ^ k`. The least positive number exceeds
`10 ^ (-330)`, so the quotient has a leading digit. -/
def leading (i : Interval) : Int :=
  ((Nat.toDigits 10 (i.value * Nat.pow 10 330 / i.denominator)).length : Int) - 330

def below (i : Interval) (exponent : Int) : Decimal :=
  let unit := i.denominator * Nat.pow 10 exponent.toNat
  ⟨i.value * Nat.pow 10 (-exponent).toNat / unit, exponent⟩

def nearerBelow (i : Interval) (d : Decimal) : Bool :=
  let (n, k) := i.scaled ⟨2 * d.digits + 1, d.exponent⟩
  2 * i.value * k < n

/-- The better of the value's two neighbours on a grid, if one lies in the interval. -/
def onGrid (i : Interval) (exponent : Int) : Option Decimal :=
  let lower := i.below exponent
  let upper : Decimal := ⟨lower.digits + 1, exponent⟩
  match i.contains lower, i.contains upper with
  | true, true => some (if i.nearerBelow lower then lower else upper)
  | true, false => some lower
  | false, true => some upper
  | false, false => none

/-- The hit on the coarsest grid that has one, from the power of ten above the value down;
seventeen digits always suffice. -/
def shortest (i : Interval) : Decimal :=
  let top := i.leading
  ((List.range 18).findSome? fun n => i.onGrid (top - (n : Nat))).getD (i.below (top - 17))

end Interval

/-- Digits without an exponent: zeros before or after them, and a point where one is needed. -/
def Decimal.positional (d : Decimal) : String :=
  let digits := toString d.digits
  if 0 ≤ d.exponent then digits ++ "".pushn '0' d.exponent.toNat
  else
    let places := (-d.exponent).toNat
    let padded := "".pushn '0' (places + 1 - digits.length) ++ digits
    let whole := padded.length - places
    String.ofList (padded.toList.take whole) ++ "." ++ String.ofList (padded.toList.drop whole)

def positional (x : Double) : String :=
  (if x.isNegative then "-" else "") ++
    if x.isZero then "0" else x.interval.shortest.positional

end TokenizerHost.Double
