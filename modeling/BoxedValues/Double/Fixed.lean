import BoxedValues.Double.Basic
import BoxedValues.Numeral

/-!
# Doubles with at most six decimal places

Reference model of `format_float`. `Double.fixedText` is the text of a double in output: the exact
value rounded to six places, half to even, without trailing zeros and without a point that nothing
follows. The sign of the double is kept even where the rounded value is zero.
-/

set_option autoImplicit false

namespace BoxedValues.Double

/-- The words for the doubles that are no numbers. -/
def wordText (x : Double) : List Char :=
  if x.isNaN then "NaN".toList
  else if x.isNegative then "-inf".toList
  else "inf".toList

/-- The magnitude of a finite double in millionths, rounded half to even. -/
def millionths (x : Double) : Nat :=
  roundHalfEven (x.significand * Nat.pow 10 6 * Nat.pow 2 x.exponent.toNat)
    (Nat.pow 2 (-x.exponent).toNat)

/-- Digits filled up with zeros in front. -/
def padDigits (width : Nat) (digits : List Char) : List Char :=
  List.replicate (width - digits.length) '0' ++ digits

/-- A number of millionths with its point and all six places. -/
def sixPlaces (n : Nat) : List Char :=
  Numeral.ofNat (n / Nat.pow 10 6) ++ '.' :: padDigits 6 (Numeral.ofNat (n % Nat.pow 10 6))

/-- A text without a trailing run of the given character. -/
def dropTrailing (mark : Char) (text : List Char) : List Char :=
  (text.reverse.dropWhile (· == mark)).reverse

/-- The text of a double in output. -/
def fixedText (x : Double) : List Char :=
  if !x.isFinite then x.wordText
  else
    let digits := dropTrailing '.' (dropTrailing '0' (sixPlaces x.millionths))
    if x.isNegative then '-' :: digits else digits

end BoxedValues.Double
