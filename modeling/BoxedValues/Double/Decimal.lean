import BoxedValues.Double.Basic
import BoxedValues.Numeral

/-!
# Reading doubles

How `string_parse_float` and the reader of literals make a number of a text. `Double.ofText?` reads
a decimal numeral with an optional point and exponent, or one of the words for the values that are
no numbers. The result is the double nearest to the exact value.
-/

set_option autoImplicit false

namespace BoxedValues.Double

/-! ## Decimal values -/

/-- The 63 bits of the double nearest to `digits * 10 ^ scale`. A value from `10 ^ 309` on is too
large, and one below `2 ^ -1075` is less than half of the least double. As `digits` is less than
`2 ^ (digits.log2 + 1)` and a tenth is less than `2 ^ -3`, the two are told by the scale, so that
the powers which are computed stay small. -/
def decimalMagnitude (digits : Nat) (scale : Int) : Nat :=
  if digits = 0 then 0
  else if 309 ≤ scale then infiniteMagnitude
  else if digits.log2 + 1 + 3 * scale ≤ -1075 then 0
  else quotientMagnitude (digits * Nat.pow 10 scale.toNat) (Nat.pow 10 (-scale).toNat)

/-! ## Text -/

/-- Whether a character is a decimal digit. -/
def isDigit (c : Char) : Bool := decide ('0' ≤ c) && decide (c ≤ '9')

/-- The number that decimal digits spell; no digits spell zero. -/
def digitsValue (digits : List Char) : Nat :=
  Numeral.value 10 (digits.map fun c => c.toNat - '0'.toNat)

/-- An exponent with one more digit. Digits after it has reached `2 ^ 16` are passed over: it is
out of all proportion then, except to a numeral of tens of thousands of digits. -/
def exponentStep (exponent digit : Nat) : Nat :=
  if exponent < Nat.pow 2 16 then exponent * 10 + digit else exponent

/-- The magnitude of an exponent of one or more digits. -/
def exponentMagnitude? (text : List Char) : Option Nat :=
  if text.isEmpty then none
  else (text.mapM (Numeral.digitBelow? 10)).map fun digits => digits.foldl exponentStep 0

/-- The exponent that a text denotes: none at all, or `e`, an optional sign and digits. -/
def exponent? : List Char → Option Int
  | [] => some 0
  | c :: rest =>
    let (negative, digits) := Numeral.splitSign rest
    if c = 'e' ∨ c = 'E' then
      (exponentMagnitude? digits).map fun n => if negative then -(n : Int) else n
    else none

/-- The magnitude of a numeral without sign: digits, at most one point among or beside them, and
an optional exponent. -/
def numeralMagnitude? (text : List Char) : Option Nat :=
  let whole := text.takeWhile isDigit
  let rest := text.dropWhile isDigit
  let (fraction, rest) :=
    match rest with
    | '.' :: rest => (rest.takeWhile isDigit, rest.dropWhile isDigit)
    | rest => ([], rest)
  if whole.isEmpty && fraction.isEmpty then none
  else (exponent? rest).map fun exponent =>
    decimalMagnitude (digitsValue (whole ++ fraction)) (exponent - fraction.length)

/-- A text with its ASCII capitals made small. -/
def smallLetters (text : List Char) : List Char := text.map Char.toLower

/-- The magnitude that a word denotes, in capitals or small letters. -/
def wordMagnitude? (text : List Char) : Option Nat :=
  let word := smallLetters text
  if word = "inf".toList ∨ word = "infinity".toList then some infiniteMagnitude
  else if word = "nan".toList then some nanMagnitude
  else none

/-- The double that a whole text denotes. -/
def ofText? (text : List Char) : Option Double :=
  let (negative, rest) := Numeral.splitSign text
  ((wordMagnitude? rest).orElse fun _ => numeralMagnitude? rest).map (ofMagnitude negative)

end BoxedValues.Double
