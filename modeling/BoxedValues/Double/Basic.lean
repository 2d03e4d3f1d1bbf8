/-!
# Binary floating-point numbers of 64 bits

A `Double` is its bit pattern, so that equality of values tells NaN payloads and the sign of zero
apart. A finite double is `± significand * 2 ^ exponent`; all arithmetic on it is done with these
whole numbers. `Double.ieeeEq` is equality as numbers.
-/

set_option autoImplicit false

namespace BoxedValues

/-- A double, given by its bits. -/
structure Double where
  bits : UInt64
  deriving DecidableEq

namespace Double

/-- Whether the sign bit is set. -/
def isNegative (x : Double) : Bool := decide (Nat.pow 2 63 ≤ x.bits.toNat)

/-- The eleven bits of the exponent. -/
def exponentField (x : Double) : Nat := x.bits.toNat / Nat.pow 2 52 % Nat.pow 2 11

/-- The lowest 52 bits. -/
def fractionField (x : Double) : Nat := x.bits.toNat % Nat.pow 2 52

/-- Whether the double stands for no number at all: all exponent bits are set, and so is some bit
of the fraction. -/
def isNaN (x : Double) : Bool := x.exponentField == 2047 && x.fractionField != 0

/-- Whether the double is neither a NaN nor an infinity. -/
def isFinite (x : Double) : Bool := x.exponentField != 2047

/-- Whether the double is zero of either sign. -/
def isZero (x : Double) : Bool := x.bits.toNat % Nat.pow 2 63 == 0

/-- The whole number that a finite double multiplies by a power of two. -/
def significand (x : Double) : Nat :=
  if x.exponentField = 0 then x.fractionField else Nat.pow 2 52 + x.fractionField

/-- The power of two of a finite double. -/
def exponent (x : Double) : Int :=
  if x.exponentField = 0 then -1074 else (x.exponentField : Int) - 1075

/-- Equality as numbers: a NaN equals nothing, and the two zeros are equal. -/
def ieeeEq (x y : Double) : Bool :=
  !x.isNaN && !y.isNaN && (x.bits == y.bits || (x.isZero && y.isZero))

/-- The double of a sign and the other 63 bits. -/
def ofMagnitude (negative : Bool) (magnitude : Nat) : Double :=
  ⟨.ofNat (if negative then Nat.pow 2 63 + magnitude else magnitude)⟩

/-- The 63 bits of an infinity. -/
def infiniteMagnitude : Nat := 2047 * Nat.pow 2 52

/-- The 63 bits of the NaN that is written `NaN`. -/
def nanMagnitude : Nat := 2047 * Nat.pow 2 52 + Nat.pow 2 51

/-- Zero with the sign bit clear. -/
def zero : Double := ⟨0⟩

/-- The double with which all zeros share a hash: zero for both zeros, else the double itself. -/
def unsignedZero (x : Double) : Double := if x.isZero then zero else x

/-! ## Rounding -/

/-- The whole number nearest to a quotient; a half goes to the even neighbour. -/
def roundHalfEven (num den : Nat) : Nat :=
  let below := num / den
  let twice := 2 * (num % den)
  if twice < den ∨ (twice = den ∧ below % 2 = 0) then below else below + 1

/-- The exponent at which the positive quotient `num / den` has a significand of 53 bits, or the
least exponent if that is larger. -/
def quotientExponent (num den : Nat) : Int :=
  let guess : Int := (num.log2 : Int) - den.log2 - 52
  let full := den * Nat.pow 2 (guess.toNat + 52) ≤ num * Nat.pow 2 (-guess).toNat
  max (if full then guess else guess - 1) (-1074)

/-- The 63 bits of the double nearest to the quotient `num / den`, ties to even, or of infinity
if the quotient is too large. A significand that rounds up to 54 bits carries into the exponent
field, which is right because its low bits are then zero. -/
def quotientMagnitude (num den : Nat) : Nat :=
  if num = 0 then 0
  else
    let exponent := quotientExponent num den
    let significand :=
      roundHalfEven (num * Nat.pow 2 (-exponent).toNat) (den * Nat.pow 2 exponent.toNat)
    min ((exponent + 1074).toNat * Nat.pow 2 52 + significand) infiniteMagnitude

end Double

end BoxedValues
