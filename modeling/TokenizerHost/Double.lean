/-!
# Binary64 numbers by their bits

A number travels between host and guest as the eight bytes of an IEEE 754 binary64 value, so a
`Double` is that bit pattern and nothing else. The module reads the fields of the pattern as
natural numbers, says which patterns are integers (`toInt?`), which integer a pattern has toward
zero (`truncate`), and which pattern is nearest to an integer (`ofInt`). No arithmetic on numbers
happens anywhere in this library, so nothing here rounds except `ofInt`.
-/

namespace TokenizerHost

/-- A binary64 number, held as its bit pattern. -/
structure Double where
  bits : UInt64
  deriving DecidableEq, Repr, Inhabited

namespace Double

def fraction (x : Double) : Nat := x.bits.toNat % 0x10000000000000

def exponentField (x : Double) : Nat := x.bits.toNat / 0x10000000000000 % 0x800

def magnitudeBits (x : Double) : Nat := x.bits.toNat % 0x8000000000000000

def isNegative (x : Double) : Bool := 0x8000000000000000 ≤ x.bits.toNat

def isNaN (x : Double) : Bool := 0x7FF0000000000000 < x.magnitudeBits

def isInfinite (x : Double) : Bool := x.magnitudeBits == 0x7FF0000000000000

def isFinite (x : Double) : Bool := x.magnitudeBits < 0x7FF0000000000000

def isZero (x : Double) : Bool := x.magnitudeBits == 0

/-- Numeric equality: a NaN equals nothing, and the two zeros are equal. -/
def numEq (x y : Double) : Bool :=
  !x.isNaN && !y.isNaN && (x.bits == y.bits || (x.isZero && y.isZero))

def zero : Double := ⟨0⟩

def canonicalNaN : Double := ⟨0x7FF8000000000000⟩

def significand (x : Double) : Nat :=
  if x.exponentField = 0 then x.fraction else 0x10000000000000 + x.fraction

/-- A finite number is `significand * 2 ^ (scale - 1075)` in magnitude. -/
def scale (x : Double) : Nat := max x.exponentField 1

def natAbs? (x : Double) : Option Nat :=
  if 1075 ≤ x.scale then some (x.significand * Nat.pow 2 (x.scale - 1075))
  else
    let unit := Nat.pow 2 (1075 - x.scale)
    if x.significand % unit = 0 then some (x.significand / unit) else none

def toInt? (x : Double) : Option Int :=
  if x.isFinite then
    x.natAbs?.map fun n => if x.isNegative then -(n : Int) else n
  else none

def truncate (x : Double) : Option Int :=
  if x.isFinite then
    let n :=
      if 1075 ≤ x.scale then x.significand * Nat.pow 2 (x.scale - 1075)
      else x.significand / Nat.pow 2 (1075 - x.scale)
    some (if x.isNegative then -(n : Int) else n)
  else none

/-- The nearest integer toward zero within `[lo, hi]`: an infinity goes to the end on its side,
a NaN to zero. -/
def saturate (lo hi : Int) (x : Double) : Int :=
  match x.truncate with
  | some n => max lo (min hi n)
  | none => if x.isNaN then 0 else if x.isNegative then lo else hi

/-- The bit pattern of `n * 2 ^ e` (`e` counted from the least positive number), for a significand
of at most 53 bits, or of infinity when the number is too large. -/
private def assemble (negative : Bool) (significand scale : Nat) : Double :=
  let magnitude :=
    if 2047 ≤ scale then 0x7FF0000000000000
    else (scale - 1) * 0x10000000000000 + significand
  ⟨UInt64.ofNat (magnitude + if negative then 0x8000000000000000 else 0)⟩

/-- The number nearest to a natural number, a tie going to the even significand. -/
def ofNatSigned (negative : Bool) (n : Nat) : Double :=
  if n = 0 then ⟨if negative then 0x8000000000000000 else 0⟩
  else
    let width := n.log2 + 1
    if width ≤ 53 then assemble negative (n * Nat.pow 2 (53 - width)) (1075 - (53 - width))
    else
      let drop := width - 53
      let quotient := n / Nat.pow 2 drop
      let rest := n % Nat.pow 2 drop
      let half := Nat.pow 2 (drop - 1)
      let rounded :=
        if half < rest ∨ (rest = half ∧ quotient % 2 = 1) then quotient + 1 else quotient
      assemble negative rounded (1075 + drop)

def ofInt (n : Int) : Double := ofNatSigned (n < 0) n.natAbs

def ofNat (n : Nat) : Double := ofNatSigned false n

example : ofInt 3 = ⟨0x4008000000000000⟩ := by decide
example : ofInt (-1) = ⟨0xBFF0000000000000⟩ := by decide
example : (ofInt 9007199254740993).toInt? = some 9007199254740992 := by decide
example : (⟨0xBFF8000000000000⟩ : Double).truncate = some (-1) := by decide
example : (⟨0xBFF8000000000000⟩ : Double).toInt? = none := by decide

end Double

end TokenizerHost
