import BoxedValues.Proofs.Double.Value
import BoxedValues.Proofs.Literal.Numerals
import BoxedValues.Proofs.Machine.Releasing
import Mathlib.Algebra.Order.Floor.Semifield
import Mathlib.Data.List.DropRight
import Mathlib.Data.Rat.Floor

/-!
# The decimal text of a double

Output shows a finite double as a decimal numeral of at most six places in which no zero is
superfluous (`ShortDecimal`), and which is as near to the double as any numeral of six places.

* `ShortDecimal.ofMillionths` is the numeral of a number of millionths;
* `dropTrailing_sixPlaces`: dropping zeros, and then a point, from the numeral with all six places
  leaves just that one, as a point stands between the places and the zeros of the whole number;
* `Double.fixedText_eq`: so the text of a double is that of the numeral of its millionths;
* `Double.fixedText_nearest`: **that numeral is within half of a millionth of the double**, and it is
  what a machine shows.
-/

set_option autoImplicit false

namespace BoxedValues

/-! ## Digits -/

namespace Numeral

open Double (digitsValue)

theorem digitsValue_append_zeros (digits : List Char) (n : Nat) :
    digitsValue (digits ++ List.replicate n '0') = digitsValue digits * 10 ^ n := by
  rw [digitsValue_eq_ofDigitChars, digitsValue_eq_ofDigitChars, Nat.ofDigitChars_append,
    Nat.ofDigitChars_replicate_zero, Nat.mul_comm]

theorem digitsValue_padDigits (width : Nat) (digits : List Char) :
    digitsValue (Double.padDigits width digits) = digitsValue digits := by
  rw [Double.padDigits, digitsValue_eq_ofDigitChars, digitsValue_eq_ofDigitChars,
    Nat.ofDigitChars_append, Nat.ofDigitChars_replicate_zero, Nat.mul_zero]

/-- The numeral of a number other than zero begins with another digit. -/
theorem head?_ofNat {n : Nat} (pos : 0 < n) : (ofNat n).head? ≠ some '0' := by
  induction n using Nat.strongRecOn with
  | ind n ih =>
    rw [ofNat]
    by_cases small : n < 10
    · rw [Nat.toDigits_of_lt_base small, List.head?_cons, ne_eq, Option.some.injEq,
        Nat.digitChar_eq_zero]
      omega
    · rw [Nat.toDigits_of_base_le (by decide) (Nat.not_lt.1 small),
        List.head?_append_of_ne_nil _ Nat.toDigits_ne_nil]
      exact ih (n / 10) (by omega) (by omega)

end Numeral

/-! ## Decimals of at most six places -/

/-- A decimal numeral of at most six places without a superfluous zero. -/
structure ShortDecimal where
  negative : Bool
  whole : Digits
  places : List Char
  plain : whole.text = ['0'] ∨ whole.text.head? ≠ some '0'
  isDigit : ∀ c ∈ places, Double.isDigit c = true
  short : places.length ≤ 6
  tight : places.getLast? ≠ some '0'

namespace ShortDecimal

/-- The places behind a point, if there are any. -/
def pointed (places : List Char) : List Char := if places = [] then [] else '.' :: places

def text (decimal : ShortDecimal) : List Char :=
  Numeral.signed decimal.negative (decimal.whole.text ++ pointed decimal.places)

/-- The number that the numeral denotes, without its sign. -/
def magnitude (decimal : ShortDecimal) : ℚ :=
  Double.digitsValue decimal.whole.text +
    Double.digitsValue decimal.places / 10 ^ decimal.places.length

/-- The number that the numeral denotes. -/
def value (decimal : ShortDecimal) : ℚ := Double.signed decimal.negative decimal.magnitude

end ShortDecimal

/-! ## Dropping zeros -/

namespace Double

variable {mark : Char} {text : List Char}

theorem dropTrailing_append (mark : Char) (front back : List Char) :
    dropTrailing mark (front ++ back) =
      if dropTrailing mark back = [] then dropTrailing mark front
      else front ++ dropTrailing mark back := by
  simp only [dropTrailing, List.reverse_append, List.dropWhile_append, List.isEmpty_iff,
    List.reverse_eq_nil_iff]
  split <;> simp

theorem dropTrailing_isPrefix (mark : Char) (text : List Char) : dropTrailing mark text <+: text :=
  List.rdropWhile_prefix _ text

theorem dropTrailing_eq_self (h : text.getLast? ≠ some mark) : dropTrailing mark text = text := by
  refine List.rdropWhile_eq_self_iff.2 fun nonempty last => h ?_
  rw [List.getLast?_eq_some_getLast nonempty, beq_iff_eq.1 last]

theorem getLast?_dropTrailing (mark : Char) (text : List Char) :
    (dropTrailing mark text).getLast? ≠ some mark := by
  intro last
  have nonempty : text.rdropWhile (· == mark) ≠ [] := by
    rintro empty
    rw [show dropTrailing mark text = [] from empty] at last
    cases last
  refine List.rdropWhile_last_not _ text nonempty ?_
  rw [beq_iff_eq]
  exact Option.some.inj ((List.getLast?_eq_some_getLast nonempty).symm.trans last)

/-- What is dropped is a run of the mark. -/
theorem dropTrailing_append_replicate (mark : Char) (text : List Char) :
    dropTrailing mark text ++
      List.replicate (text.length - (dropTrailing mark text).length) mark = text := by
  have whole : dropTrailing mark text ++ text.rtakeWhile (· == mark) = text :=
    List.rdropWhile_append_rtakeWhile
  have run : text.rtakeWhile (· == mark) =
      List.replicate (text.length - (dropTrailing mark text).length) mark := by
    refine List.eq_replicate_iff.2 ⟨?_, fun c mem => ?_⟩
    · have counted := congrArg List.length whole
      rw [List.length_append] at counted
      omega
    · have same := List.mem_rtakeWhile_imp mem
      exact beq_iff_eq.1 same
  rw [← run, whole]

/-! ## The text of millionths -/

/-- The six places of a number of millionths. -/
def places (n : Nat) : List Char := padDigits 6 (Numeral.ofNat (n % Nat.pow 10 6))

theorem length_places (n : Nat) : (places n).length = 6 := by
  have short : (Numeral.ofNat (n % Nat.pow 10 6)).length ≤ 6 :=
    (Nat.length_toDigits_le_iff (by decide) (by decide)).2 (Nat.mod_lt n (by decide))
  rw [places, padDigits, List.length_append, List.length_replicate]
  omega

theorem isDigit_of_mem_places {n : Nat} {c : Char} (mem : c ∈ places n) : isDigit c = true := by
  rcases List.mem_append.1 mem with zero | digit
  · rw [List.eq_of_mem_replicate zero]
    rfl
  · exact (Digits.ofNat _).isDigit c digit

theorem digitsValue_places (n : Nat) : digitsValue (places n) = n % 10 ^ 6 := by
  rw [places, Numeral.digitsValue_padDigits, Numeral.digitsValue_ofNat, Nat.pow_eq]

/-- Neither a digit nor a run of digits ends in a point. -/
theorem getLast?_ne_point {digits : List Char} (h : ∀ c ∈ digits, isDigit c = true) :
    digits.getLast? ≠ some '.' := by
  intro last
  cases h '.' (List.mem_of_getLast? last)

/-- The zeros that are dropped all stand behind the point, and the point goes if nothing else does. -/
theorem dropTrailing_sixPlaces (n : Nat) :
    dropTrailing '.' (dropTrailing '0' (sixPlaces n)) =
      Numeral.ofNat (n / Nat.pow 10 6) ++
        ShortDecimal.pointed (dropTrailing '0' (places n)) := by
  have whole := (Digits.ofNat (n / Nat.pow 10 6)).isDigit
  have kept : ∀ c ∈ dropTrailing '0' (places n), isDigit c = true := fun c mem =>
    isDigit_of_mem_places ((dropTrailing_isPrefix '0' _).subset mem)
  have zeros : dropTrailing '0' (sixPlaces n) =
      Numeral.ofNat (n / Nat.pow 10 6) ++ '.' :: dropTrailing '0' (places n) := by
    have behind : dropTrailing '0' ('.' :: places n) = '.' :: dropTrailing '0' (places n) := by
      rw [← List.singleton_append, dropTrailing_append]
      split
      · rename_i none
        rw [none]
        rfl
      · rfl
    rw [sixPlaces, dropTrailing_append, ← places, behind, if_neg (List.cons_ne_nil _ _)]
  rw [zeros, ShortDecimal.pointed]
  generalize dropTrailing '0' (places n) = shown at kept ⊢
  by_cases none : shown = []
  · rw [if_pos none, none, List.append_nil, dropTrailing_append,
      if_pos (show dropTrailing '.' ['.'] = [] from rfl)]
    exact dropTrailing_eq_self (getLast?_ne_point whole)
  · rw [if_neg none]
    refine dropTrailing_eq_self ?_
    rw [← List.singleton_append, ← List.append_assoc, List.getLast?_append_of_ne_nil _ none]
    exact getLast?_ne_point kept

end Double

namespace ShortDecimal

/-- The numeral of a number of millionths. -/
def ofMillionths (negative : Bool) (n : Nat) : ShortDecimal where
  negative := negative
  whole := .ofNat (n / Nat.pow 10 6)
  places := Double.dropTrailing '0' (Double.places n)
  plain := by
    rcases Nat.eq_zero_or_pos (n / Nat.pow 10 6) with zero | pos
    · rw [zero]
      exact .inl rfl
    · exact .inr (Numeral.head?_ofNat pos)
  isDigit c mem := Double.isDigit_of_mem_places ((Double.dropTrailing_isPrefix '0' _).subset mem)
  short := (Double.dropTrailing_isPrefix '0' _).length_le.trans (Double.length_places n).le
  tight := Double.getLast?_dropTrailing '0' _

theorem magnitude_ofMillionths (negative : Bool) (n : Nat) :
    (ofMillionths negative n).magnitude = n / 10 ^ 6 := by
  have short : (Double.dropTrailing '0' (Double.places n)).length ≤ 6 :=
    (ofMillionths negative n).short
  have padded := Double.dropTrailing_append_replicate '0' (Double.places n)
  have digits := Double.digitsValue_places n
  rw [← padded, Numeral.digitsValue_append_zeros, Double.length_places] at digits
  have split := Nat.div_add_mod n (10 ^ 6)
  show ((Double.digitsValue (Numeral.ofNat (n / 10 ^ 6)) : ℕ) : ℚ) +
    Double.digitsValue (Double.dropTrailing '0' (Double.places n)) /
      10 ^ (Double.dropTrailing '0' (Double.places n)).length = n / 10 ^ 6
  rw [Numeral.digitsValue_ofNat]
  generalize Double.dropTrailing '0' (Double.places n) = shown at short digits ⊢
  generalize n / 10 ^ 6 = whole at split ⊢
  generalize n % 10 ^ 6 = rest at split digits
  have powers : (10 : ℚ) ^ shown.length * 10 ^ (6 - shown.length) = 10 ^ 6 := by
    rw [← pow_add, Nat.add_sub_of_le short]
  have placed : (Double.digitsValue shown : ℚ) / 10 ^ shown.length = rest / 10 ^ 6 := by
    rw [← digits, ← powers, Nat.cast_mul, Nat.cast_pow, Nat.cast_ofNat,
      mul_div_mul_right _ _ (pow_ne_zero _ (by norm_num))]
  rw [placed, ← split, Nat.cast_add, Nat.cast_mul, Nat.cast_pow, Nat.cast_ofNat, add_div,
    mul_div_cancel_left₀ _ (by norm_num)]

theorem value_ofMillionths (negative : Bool) (n : Nat) :
    (ofMillionths negative n).value = Double.signed negative (n / 10 ^ 6) := by
  rw [value, magnitude_ofMillionths]
  rfl

end ShortDecimal

namespace Double

/-- The text of a finite double is the numeral of its millionths. -/
theorem fixedText_eq {x : Double} (finite : x.isFinite = true) :
    x.fixedText = (ShortDecimal.ofMillionths x.isNegative x.millionths).text := by
  rw [fixedText, if_neg (by rw [finite]; decide), dropTrailing_sixPlaces]
  rfl

end Double

/-- The numeral shows the double, as nearly as six places can. -/
structure ShortDecimal.Shows (decimal : ShortDecimal) (x : Double) : Prop where
  text : x.fixedText = decimal.text
  negative : decimal.negative = x.isNegative
  millionths : ∃ n : ℤ, decimal.value = n / 10 ^ 6
  near : |decimal.value - x.value| ≤ 1 / 2 / 10 ^ 6
  /-- No digit of the whole number is missing. -/
  whole : decimal.whole.text = Numeral.ofNat ⌊decimal.magnitude⌋₊
  /-- It is also what a machine answers for a box of the double. -/
  given : ∀ (machine : Machine) (state : State) (ref : Ref), machine.Live state →
    state.heap.get ref = ⟨machine.ids.float, .float x⟩ →
      machine.GivesText state ref (Utf8.encode decimal.text)

theorem Machine.givesText_float {machine : Machine} {state : State} {ref : Ref} {x : Double}
    (live : machine.Live state) (held : state.heap.get ref = ⟨machine.ids.float, .float x⟩) :
    machine.GivesText state ref (Utf8.encode x.fixedText) := by
  have scalar : ∀ buffer, (state.heap.get ref).payload ≠ .array buffer := by
    intro buffer
    rw [held]
    exact Payload.noConfusion
  have here : state.heap.Holds ref ⟨machine.ids.float, .float x⟩ := by
    rw [← held]
    exact Heap.holds_get (Heap.lt_size_of_payload (by rw [held]; exact Payload.noConfusion))
  have within : state.heap.Within machine.IsBuiltin ref :=
    Heap.within_of_items_nil (Heap.items_of_leaf scalar) here ⟨.float, rfl, rfl⟩
  obtain ⟨text, after, ran, _, isText⟩ := gives_textOf live (Nat.le_refl _) within.carries
  refine ⟨text, after, ran, ?_⟩
  rw [isText, Heap.text_leaf scalar, held]
  rfl

/-- **A finite double is shown as the decimal of at most six places that is nearest to it**, with a
minus sign just if its sign bit is set, and without superfluous zeros. -/
theorem Double.fixedText_nearest (x : Double) (finite : x.isFinite = true) :
    ∃ decimal : ShortDecimal, decimal.Shows x := by
  have text := fixedText_eq finite
  refine ⟨.ofMillionths x.isNegative x.millionths, ?_⟩
  constructor
  case text => exact text
  case negative => rfl
  case millionths =>
    refine ⟨if x.isNegative then -x.millionths else x.millionths, ?_⟩
    rw [ShortDecimal.value_ofMillionths, signed]
    split
    · rw [Int.cast_neg, Int.cast_natCast, neg_div]
    · rw [Int.cast_natCast]
  case near =>
    rw [ShortDecimal.value_ofMillionths, value, abs_signed_sub]
    exact x.abs_millionths_sub_le
  case whole =>
    have floor : ⌊(x.millionths : ℚ) / (10 ^ 6 : ℕ)⌋₊ = x.millionths / 10 ^ 6 :=
      Nat.floor_div_eq_div x.millionths (10 ^ 6)
    rw [Nat.cast_pow, Nat.cast_ofNat] at floor
    rw [ShortDecimal.magnitude_ofMillionths, floor]
    rfl
  case given =>
    intro machine state ref live held
    rw [← text]
    exact Machine.givesText_float live held

/-- The double nearest to minus a billionth keeps its sign, and the one at ten to the power of 22 all
zeros of its whole number. -/
theorem Double.fixedText_nearest_extremes :
    (∃ decimal : ShortDecimal, decimal.Shows ⟨0xBE112E0BE826D695⟩ ∧ decimal.text = ['-', '0']) ∧
    ∃ decimal : ShortDecimal, decimal.Shows ⟨0x4480F0CF064DD592⟩ ∧
      decimal.text = '1' :: List.replicate 22 '0' := by
  obtain ⟨tiny, shows⟩ := fixedText_nearest ⟨0xBE112E0BE826D695⟩ (by decide)
  obtain ⟨large, shows'⟩ := fixedText_nearest ⟨0x4480F0CF064DD592⟩ (by decide)
  refine ⟨⟨tiny, shows, ?_⟩, large, shows', ?_⟩
  · rw [← shows.text]
    decide +kernel
  · rw [← shows'.text]
    decide +kernel

end BoxedValues
