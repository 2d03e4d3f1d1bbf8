import BoxedValues.Double.Fixed

/-!
# The shortest decimal that reads back

How a float is written where a value is described for a developer. `Double.shortest` finds the
fewest digits that lead back to a double, and of these the nearest to it. `Double.debugText` writes
them positionally for moderate magnitudes and with an exponent for all others.
-/

set_option autoImplicit false

namespace BoxedValues.Double

/-- Digits and the power of ten that they multiply. -/
structure Decimal where
  digits : Nat
  scale : Int
  deriving DecidableEq

/-- The reals between `low` and `high` quarters of a unit in the last place around a finite double
round to it; the ends do so if the significand is even. -/
structure Interval where
  low : Nat
  high : Nat
  closed : Bool

/-- The rounding interval, in quarters of a unit. Below the least significand of a binade the
neighbours lie twice as dense. -/
def interval (x : Double) : Interval where
  low := 4 * x.significand - (if x.fractionField = 0 ∧ 1 < x.exponentField then 1 else 2)
  high := 4 * x.significand + 2
  closed := x.significand % 2 == 0

/-- Whether the quotient `num / den` lies in an interval. -/
def Interval.contains (i : Interval) (num den : Nat) : Bool :=
  if i.closed then decide (i.low * den ≤ num) && decide (num ≤ i.high * den)
  else decide (i.low * den < num) && decide (num < i.high * den)

/-- The number of digits before the point of the quotient `num / den`, or minus the number of
zeros behind it: the least `k` with `num / den < 10 ^ k`, looked for upwards from `k`. -/
def decimalPoint (num den : Nat) : Nat → Int → Int
  | 0, k => k
  | fuel + 1, k =>
    if num * Nat.pow 10 (-k).toNat < den * Nat.pow 10 k.toNat then k
    else decimalPoint num den fuel (k + 1)

/-- The multiple of `10 ^ scale` next to `4 * significand` quarters that reads back, if one of
the two neighbours does; the nearer one if both do, and the larger one of two equally near. A
quarter is `unit.1 / unit.2`. -/
def onGrid (i : Interval) (quarters : Nat) (unit : Nat × Nat) (scale : Int) : Option Decimal :=
  let (num, den) := (Nat.pow 10 scale.toNat * unit.2, Nat.pow 10 (-scale).toNat * unit.1)
  let below := quarters * den / num
  let hits (n : Nat) : Bool := i.contains (n * num) den
  let upper := decide (num ≤ 2 * (quarters * den % num))
  match hits below, hits (below + 1) with
  | true, true => some ⟨if upper then below + 1 else below, scale⟩
  | true, false => some ⟨below, scale⟩
  | false, true => some ⟨below + 1, scale⟩
  | false, false => none

/-- The coarsest of the grids from `10 ^ scale` on downwards on which a neighbour reads back. -/
def firstOnGrid (i : Interval) (quarters : Nat) (unit : Nat × Nat) : Nat → Int → Option Decimal
  | 0, _ => none
  | fuel + 1, scale =>
    match onGrid i quarters unit scale with
    | some d => some d
    | none => firstOnGrid i quarters unit fuel (scale - 1)

/-- The shortest decimal that reads back as a finite double other than zero. Seventeen digits
always suffice. -/
def shortest (x : Double) : Decimal :=
  let exponent := x.exponent - 2
  let unit := (Nat.pow 2 exponent.toNat, Nat.pow 2 (-exponent).toNat)
  let quarters := 4 * x.significand
  let point := decimalPoint (quarters * unit.1) unit.2 640 (-325)
  (firstOnGrid x.interval quarters unit 17 (point - 1)).getD ⟨0, 0⟩

/-- Digits with a point after the first `before` of them; without a point if no digit follows. -/
def pointed (digits : List Char) (before : Nat) : List Char :=
  match digits.drop before with
  | [] => digits.take before
  | rest => digits.take before ++ '.' :: rest

/-- A decimal as one digit, a point and the other digits, and an exponent of ten. -/
def scientificText (digits : List Char) (point : Int) : List Char :=
  pointed digits 1 ++ 'e' :: Numeral.ofInt (point - 1)

/-- A decimal with all its places before the point, and at least one behind it. -/
def positionalText (digits : List Char) (point : Int) : List Char :=
  if point ≤ 0 then '0' :: '.' :: List.replicate (-point).toNat '0' ++ digits
  else if digits.length ≤ point.toNat then
    digits ++ List.replicate (point.toNat - digits.length) '0' ++ ['.', '0']
  else pointed digits point.toNat

/-- The magnitude of a finite double: positional from `10 ^ -4` up to `10 ^ 16`. -/
def magnitudeText (x : Double) : List Char :=
  if x.isZero then ['0', '.', '0']
  else
    let d := x.shortest
    let all := Numeral.ofNat d.digits
    let digits := dropTrailing '0' all
    let point := d.scale + all.length
    if point ≤ -4 ∨ 17 ≤ point then scientificText digits point else positionalText digits point

/-- The text of a double for a reader who has to tell all numbers apart. -/
def debugText (x : Double) : List Char :=
  if !x.isFinite then x.wordText
  else if x.isNegative then '-' :: x.magnitudeText else x.magnitudeText

end BoxedValues.Double
