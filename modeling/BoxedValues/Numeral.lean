/-!
# Numerals

Whole numbers as text, for `int_to_string` and `string_parse_int`. `Numeral.ofInt` writes the
decimal numeral of an integer, and `Numeral.toInt64?` reads a numeral in any radix up to 36, as far
as its value fits in 64 bits.
-/

set_option autoImplicit false

namespace BoxedValues.Numeral

/-! ## Writing -/

/-- The decimal digits of a natural number, without leading zeros. -/
def ofNat (n : Nat) : List Char := Nat.toDigits 10 n

/-- The decimal digits of an integer, after a minus sign if it is negative. -/
def ofInt (i : Int) : List Char :=
  match i with
  | .ofNat n => ofNat n
  | .negSucc n => '-' :: ofNat (n + 1)

/-! ## Reading -/

/-- The value of a digit: `0` to `9`, then the letters of either case from 10 on. -/
def digit? (c : Char) : Option Nat :=
  if '0' ≤ c ∧ c ≤ '9' then some (c.toNat - '0'.toNat)
  else if 'a' ≤ c ∧ c ≤ 'z' then some (c.toNat - 'a'.toNat + 10)
  else if 'A' ≤ c ∧ c ≤ 'Z' then some (c.toNat - 'A'.toNat + 10)
  else none

/-- The value of a digit of a radix. -/
def digitBelow? (radix : Nat) (c : Char) : Option Nat := (digit? c).filter (· < radix)

/-- The digits of radix `radix * radix` that pairs of digits form, least significant first. -/
def paired (radix : Nat) : List Nat → List Nat
  | low :: high :: rest => (low + radix * high) :: paired radix rest
  | digits => digits

theorem length_paired (radix : Nat) (digits : List Nat) :
    2 * (paired radix digits).length ≤ digits.length + 1 := by
  fun_induction paired radix digits with
  | case1 low high rest ih =>
    simp only [List.length_cons]
    omega
  | case2 digits single =>
    match digits, single with
    | [], _ => simp
    | [_], _ => simp
    | low :: high :: rest, single => exact absurd rfl (single low high rest)

/-- The number that digits spell, least significant first. Pairs are joined until one digit is
left, which takes fewer steps with large numbers than one digit after the other. -/
def valueUp (radix : Nat) : List Nat → Nat
  | [] => 0
  | [digit] => digit
  | low :: high :: rest => valueUp (radix * radix) (paired radix (low :: high :: rest))
termination_by digits => digits.length
decreasing_by
  have := length_paired radix (low :: high :: rest)
  simp only [List.length_cons] at *
  omega

/-- The number that digits spell, most significant first. -/
def value (radix : Nat) (digits : List Nat) : Nat := valueUp radix digits.reverse

theorem foldr_paired (radix : Nat) (digits : List Nat) :
    (paired radix digits).foldr (fun d n => d + radix * radix * n) 0 =
      digits.foldr (fun d n => d + radix * n) 0 := by
  fun_induction paired radix digits with
  | case1 low high rest ih =>
    rw [List.foldr_cons, List.foldr_cons, List.foldr_cons, ih, Nat.mul_add, Nat.mul_assoc,
      Nat.add_assoc]
  | case2 digits single =>
    match digits, single with
    | [], _ => rfl
    | [_], _ => simp
    | low :: high :: rest, single => exact absurd rfl (single low high rest)

theorem valueUp_eq_foldr (radix : Nat) (digits : List Nat) :
    valueUp radix digits = digits.foldr (fun d n => d + radix * n) 0 := by
  fun_induction valueUp radix digits with
  | case1 => rfl
  | case2 => simp
  | case3 radix low high rest ih => rw [ih, foldr_paired]

/-- Each digit adds itself to the value before it, moved by one place. -/
theorem value_eq_foldl (radix : Nat) (digits : List Nat) :
    value radix digits = digits.foldl (fun n d => n * radix + d) 0 := by
  rw [value, valueUp_eq_foldr, List.foldr_reverse]
  congr 1
  funext n d
  rw [Nat.mul_comm, Nat.add_comm]

/-- The number that a text of one or more digits spells. -/
def natural? (radix : Nat) (text : List Char) : Option Nat :=
  if text.isEmpty then none else (text.mapM (digitBelow? radix)).map (value radix)

/-- A text cut into its sign, which is negative only for a leading minus, and the rest. -/
def splitSign : List Char → Bool × List Char
  | '-' :: rest => (true, rest)
  | '+' :: rest => (false, rest)
  | text => (false, text)

/-- The number that digits after an optional sign spell. -/
def integer? (radix : Nat) (text : List Char) : Option Int :=
  let (negative, digits) := splitSign text
  (natural? radix digits).map fun n => if negative then -(n : Int) else n

/-- The 64-bit number of an integer in range. -/
def int64? (i : Int) : Option Int64 :=
  if Int64.minValue.toInt ≤ i ∧ i ≤ Int64.maxValue.toInt then some (.ofInt i) else none

/-- The 64-bit number that a numeral in `radix` spells. -/
def toInt64? (radix : Nat) (text : List Char) : Option Int64 := (integer? radix text).bind int64?

example : toInt64? 10 ['-', '4', '2'] = some (-42) ∧ toInt64? 10 ['-'] = none ∧
    toInt64? 36 ['z', 'Z'] = some 1295 := by decide +kernel

end BoxedValues.Numeral
