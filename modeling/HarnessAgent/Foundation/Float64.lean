import Mathlib.Data.Rat.Floor

/-! # Binary64 numbers

Bit patterns of IEEE-754 doubles, the rational a finite pattern denotes, and
rounding of a rational to the nearest double (ties to even). Only what parsing
and comparing numbers, summing costs and casting to integers needs is provided.
-/

namespace HarnessAgent

structure F64 where
  bits : UInt64
  deriving DecidableEq, Repr, Inhabited

namespace F64

def isNegative (number : F64) : Bool :=
  decide (2 ^ 63 ≤ number.bits.toNat)

def exponentField (number : F64) : Nat :=
  number.bits.toNat / 2 ^ 52 % 2 ^ 11

def fraction (number : F64) : Nat :=
  number.bits.toNat % 2 ^ 52

def isFinite (number : F64) : Bool :=
  decide (number.exponentField ≠ 2047)

def value (number : F64) : Rat :=
  let magnitude : Rat :=
    if number.exponentField = 0 then
      number.fraction * (2 : Rat) ^ (-1074 : Int)
    else
      (2 ^ 52 + number.fraction : Nat) *
        (2 : Rat) ^ ((number.exponentField : Int) - 1075)
  if number.isNegative then -magnitude else magnitude

def infinity : F64 := ⟨0x7ff0000000000000⟩

def negInfinity : F64 := ⟨0xfff0000000000000⟩

def nan : F64 := ⟨0x7ff8000000000000⟩

def roundHalfEven (number : Rat) : Int :=
  let below := number.floor
  let rest := number - below
  if rest < 1 / 2 then below
  else if 1 / 2 < rest then below + 1
  else if below % 2 = 0 then below
  else below + 1

def binaryExponent (number : Rat) : Int :=
  let estimate : Int := (Nat.log2 number.num.natAbs : Int) - Nat.log2 number.den
  if (2 : Rat) ^ estimate ≤ number then estimate else estimate - 1

/-- Bits of a non-negative number. A mantissa below `2 ^ 52` occurs only at the
smallest exponent and is subnormal; a mantissa of `2 ^ 53` carries into the
exponent field. -/
def ofMagnitude (number : Rat) : Nat :=
  if number ≤ 0 then 0
  else
    let exponent := max (binaryExponent number) (-1022)
    let mantissa := (roundHalfEven (number / (2 : Rat) ^ (exponent - 52))).toNat
    min ((exponent + 1022).toNat * 2 ^ 52 + mantissa) (2047 * 2 ^ 52)

/-- Correctly rounded conversion; magnitudes beyond the range become infinite. -/
def ofRat (number : Rat) : F64 :=
  ⟨UInt64.ofNat
    (if number < 0 then 2 ^ 63 + ofMagnitude (-number) else ofMagnitude number)⟩

def neg (number : F64) : F64 :=
  ⟨number.bits + 0x8000000000000000⟩

def isNan (number : F64) : Bool :=
  !number.isFinite && number.fraction != 0

def add (left right : F64) : F64 :=
  if left.isNan || right.isNan then nan
  else if !left.isFinite && !right.isFinite then
    if left.isNegative = right.isNegative then left else nan
  else if !left.isFinite then left
  else if !right.isFinite then right
  else if left.value + right.value = 0 ∧ left.isNegative ∧ right.isNegative then left
  else ofRat (left.value + right.value)

instance : Add F64 := ⟨add⟩

def zero : F64 := ⟨0⟩

def isPositive (number : F64) : Bool :=
  !number.isNan && !number.isNegative && number.bits.toNat != 0

/-- The order of numbers, in which NaN compares with nothing. -/
def lessEqual (left right : F64) : Bool :=
  !left.isNan && !right.isNan &&
    (left = negInfinity || right = infinity ||
      (left.isFinite && right.isFinite && decide (left.value ≤ right.value)))

/-- The cast to an unsigned integer: it drops the fraction, stops at the bounds
of the type, and sends NaN to zero. -/
def toUnsigned (width : Nat) (number : F64) : Nat :=
  if number.isNan || number.isNegative then 0
  else if number.isFinite then min number.value.floor.toNat (2 ^ width - 1)
  else 2 ^ width - 1

example : ofRat 1 = ⟨0x3ff0000000000000⟩ := by decide +kernel

example : ofRat (-3 / 2) = ⟨0xbff8000000000000⟩ := by decide +kernel

example : ofRat (1 / 10) = ⟨0x3fb999999999999a⟩ := by decide +kernel

end F64

end HarnessAgent
