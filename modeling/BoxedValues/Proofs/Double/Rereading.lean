import BoxedValues.Machine.StringLibrary
import BoxedValues.Proofs.Double.FixedText
import BoxedValues.Proofs.Double.Nearest
import BoxedValues.Proofs.Machine.Sending
import BoxedValues.Proofs.Numeral.Radix

/-!
# Reading a double back from its text

The text of a double need not be read as the same double: six places are too few for small numbers.
It is read as a double of the same text, though, since the second rounding goes to a double that is as
near to the text as any, the first double among them.

* `roundHalfEven_eq_of_nearer`: a number as near to a rounded one as the number that was rounded is
  rounded alike, also halfway between two whole numbers, where the even one was taken;
* `ofText?_text`: a short decimal is read as a nearest double;
* `Machine.rereads`: **what a double is shown as, is parsed as a float that is shown the same**, for
  all bits.
-/

set_option autoImplicit false

namespace BoxedValues

namespace Double

/-! ## Rounding alike -/

section

variable {num den : ℕ} (pos : 0 < den)

include pos

/-- Halfway between two whole numbers the even one is taken. -/
theorem even_of_halfway (half : |(roundHalfEven num den : ℚ) - num / den| = 1 / 2) :
    roundHalfEven num den % 2 = 0 := by
  have pos' : (den : ℚ) ≠ 0 := Nat.cast_ne_zero.2 pos.ne'
  have split := Nat.div_add_mod num den
  have rest := Nat.mod_lt num pos
  have either : 2 * num = 2 * (den * roundHalfEven num den) + den ∨
      2 * num + den = 2 * (den * roundHalfEven num den) := by
    rcases eq_or_eq_neg_of_abs_eq half with above | below
    · right
      rw [sub_eq_iff_eq_add, ← sub_eq_iff_eq_add', eq_div_iff pos'] at above
      have : (2 * num + den : ℚ) = 2 * (den * roundHalfEven num den) := by linarith
      exact_mod_cast this
    · left
      rw [sub_eq_iff_eq_add, ← sub_eq_iff_eq_add', eq_div_iff pos'] at below
      have : (2 * num : ℚ) = 2 * (den * roundHalfEven num den) + den := by linarith
      exact_mod_cast this
  rw [roundHalfEven] at either ⊢
  generalize num / den = quotient at split either ⊢
  generalize num % den = remainder at split rest either ⊢
  by_cases down : 2 * remainder < den ∨ 2 * remainder = den ∧ quotient % 2 = 0
  · rw [if_pos down] at either ⊢
    omega
  · rw [if_neg down, Nat.mul_succ] at either
    rw [if_neg down]
    omega

/-- Rounding is known by being at most a half away, and even if it is a half. -/
theorem roundHalfEven_eq_of_near {n : ℕ} (near : |(n : ℚ) - num / den| ≤ 1 / 2)
    (even : |(n : ℚ) - num / den| = 1 / 2 → n % 2 = 0) : roundHalfEven num den = n := by
  have rounded := abs_roundHalfEven_sub_le num pos
  have tie : |(roundHalfEven num den : ℚ) - num / den| = 1 / 2 → roundHalfEven num den % 2 = 0 :=
    even_of_halfway pos
  generalize roundHalfEven num den = m at rounded tie ⊢
  by_contra ne
  have apart : (1 : ℚ) ≤ |(m : ℚ) - n| := by
    exact_mod_cast Int.one_le_abs (sub_ne_zero.2 (Nat.cast_injective.ne ne : (m : ℤ) ≠ n))
  have triangle := abs_sub_le (m : ℚ) (num / den) n
  rw [abs_sub_comm ((num : ℚ) / den) n] at triangle
  have atMost : |(m : ℤ) - n| ≤ 1 := by
    have : |(m : ℚ) - n| ≤ 1 := by linarith
    exact_mod_cast this
  have evens : m % 2 = 0 ∧ n % 2 = 0 := ⟨tie (by linarith), even (by linarith)⟩
  rw [abs_le] at atMost
  omega

end

/-- A number as near to a rounded one as the number that was rounded is rounded alike. -/
theorem roundHalfEven_eq_of_nearer {num den num' den' : ℕ} (pos : 0 < den) (pos' : 0 < den')
    (nearer : |(roundHalfEven num den : ℚ) - num' / den'| ≤ |(roundHalfEven num den : ℚ) - num / den|) :
    roundHalfEven num' den' = roundHalfEven num den := by
  have rounded := abs_roundHalfEven_sub_le num pos
  refine roundHalfEven_eq_of_near pos' (nearer.trans rounded) fun half => ?_
  exact even_of_halfway pos (le_antisymm rounded (half ▸ nearer))

theorem millionths_eq_of_nearer {x w : Double}
    (nearer : |w.magnitude - x.millionths / 10 ^ 6| ≤ |x.magnitude - x.millionths / 10 ^ 6|) :
    w.millionths = x.millionths := by
  have scaled (y : Double) : |(x.millionths : ℚ) - y.magnitude * 10 ^ 6| =
      |y.magnitude - x.millionths / 10 ^ 6| * 10 ^ 6 := by
    have factor : (x.millionths : ℚ) - y.magnitude * 10 ^ 6 =
        -((y.magnitude - x.millionths / 10 ^ 6) * 10 ^ 6) := by
      field_simp
      ring
    rw [factor, abs_neg, abs_mul, abs_of_pos (show (0 : ℚ) < 10 ^ 6 by norm_num)]
  refine roundHalfEven_eq_of_nearer (Nat.two_pow_pos _) (Nat.two_pow_pos _) ?_
  change |(x.millionths : ℚ) - _ / (2 ^ (-w.exponent).toNat : ℕ)| ≤
    |(x.millionths : ℚ) - _ / (2 ^ (-x.exponent).toNat : ℕ)|
  rw [scaled_millionths, scaled_millionths, scaled, scaled]
  exact mul_le_mul_of_nonneg_right nearer (by norm_num)

end Double

/-! ## Reading short decimals -/

theorem Numeral.digitsValue_append (front back : List Char) :
    Double.digitsValue (front ++ back) =
      Double.digitsValue front * 10 ^ back.length + Double.digitsValue back := by
  simp only [Double.digitsValue, value_eq_ofDigits, List.map_append, List.reverse_append,
    Nat.ofDigits_append, List.length_reverse, List.length_map]
  rw [Nat.add_comm, Nat.mul_comm]

/-- A digit is no letter, so it is left as it is. -/
theorem Double.toLower_of_isDigit {c : Char} (digit : isDigit c = true) : c.toLower = c := by
  have capital : ¬(c.val ≥ 'A'.val ∧ c.val ≤ 'Z'.val) := by
    simp only [isDigit, Bool.and_eq_true, decide_eq_true_eq, Char.le_def] at digit
    rintro ⟨low, _⟩
    have high := digit.2
    rw [ge_iff_le, UInt32.le_iff_toNat_le] at low
    rw [UInt32.le_iff_toNat_le] at high
    exact absurd (low.trans high) (by decide)
  exact dif_neg capital

/-- What begins with a digit is no word. -/
theorem Double.wordMagnitude?_digits (digits : Digits) (rest : List Char) :
    wordMagnitude? (digits.text ++ rest) = none := by
  obtain ⟨c, others, same, digit⟩ := digits.exists_cons
  have first {letter : Char} (more : List Char) (letters : isDigit letter = false) :
      smallLetters (digits.text ++ rest) ≠ letter :: more := by
    rw [same, List.cons_append, smallLetters, List.map_cons, toLower_of_isDigit digit]
    rintro ⟨⟩
    rw [digit] at letters
    cases letters
  have words : ¬(smallLetters (digits.text ++ rest) = "inf".toList ∨
      smallLetters (digits.text ++ rest) = "infinity".toList) := by
    rintro (word | word)
    · exact first _ rfl word
    · exact first _ rfl word
  have nan : smallLetters (digits.text ++ rest) ≠ "nan".toList := first _ rfl
  unfold wordMagnitude?
  dsimp only
  rw [if_neg words, if_neg nan]

namespace ShortDecimal

variable (decimal : ShortDecimal)

/-- All digits, without the point. -/
def digits : List Char := decimal.whole.text ++ decimal.places

theorem magnitude_eq_div :
    decimal.magnitude = Double.digitsValue decimal.digits / (10 ^ decimal.places.length : ℕ) := by
  rw [magnitude, digits, Numeral.digitsValue_append]
  push_cast
  field_simp

theorem numeralMagnitude?_text :
    Double.numeralMagnitude? (decimal.whole.text ++ pointed decimal.places) =
      some (Double.decimalMagnitude (Double.digitsValue decimal.digits)
        (-(decimal.places.length : ℤ))) := by
  have filled : decimal.whole.text.isEmpty = false :=
    List.isEmpty_eq_false_iff.2 decimal.whole.nonempty
  unfold Double.numeralMagnitude? pointed
  by_cases none : decimal.places = []
  · rw [if_pos none]
    simp only [Digits.takeWhile_append decimal.whole Digits.endBefore_nil,
      Digits.dropWhile_append decimal.whole Digits.endBefore_nil, filled]
    rw [digits, none]
    rfl
  · have point : Digits.EndBefore ('.' :: decimal.places) := Digits.endBefore_cons (by decide)
    have all : decimal.places.takeWhile Double.isDigit = decimal.places :=
      List.takeWhile_eq_self_iff.2 decimal.isDigit
    have rest : decimal.places.dropWhile Double.isDigit = [] :=
      List.dropWhile_eq_nil_iff.2 decimal.isDigit
    rw [if_neg none]
    simp only [Digits.takeWhile_append decimal.whole point,
      Digits.dropWhile_append decimal.whole point, filled, all, rest]
    rw [digits]
    simp [Double.exponent?]

/-- With six places at most, the number is rounded as a quotient. -/
theorem decimalMagnitude_eq (n : ℕ) {places : ℕ} (short : places ≤ 6) :
    Double.decimalMagnitude n (-(places : ℤ)) = Double.quotientMagnitude n (10 ^ places) := by
  unfold Double.decimalMagnitude
  by_cases zero : n = 0
  · rw [if_pos zero, zero]
    rfl
  · rw [if_neg zero, if_neg (by omega), if_neg (by omega), Int.toNat_neg_natCast, neg_neg,
      Int.toNat_natCast, Nat.pow_eq, pow_zero, Nat.mul_one]
    rfl

theorem splitSign_text :
    Numeral.splitSign decimal.text =
      (decimal.negative, decimal.whole.text ++ pointed decimal.places) := by
  unfold text
  cases decimal.negative with
  | true => rfl
  | false => exact Numeral.splitSign_digits decimal.whole _

/-- The double that a short decimal is read as. -/
def double : Double :=
  .ofMagnitude decimal.negative
    (Double.quotientMagnitude (Double.digitsValue decimal.digits) (10 ^ decimal.places.length))

theorem ofText?_text : Double.ofText? decimal.text = some decimal.double := by
  unfold Double.ofText?
  rw [splitSign_text]
  dsimp only
  rw [Double.wordMagnitude?_digits, numeralMagnitude?_text, decimalMagnitude_eq _ decimal.short]
  rfl

/-- It is a nearest one. -/
theorem isNearest_double (fits : decimal.magnitude < Double.overflowBound) :
    decimal.double.IsNearest decimal.magnitude := by
  rw [magnitude_eq_div] at fits ⊢
  exact Double.isNearest_quotientMagnitude _ _ (Nat.pow_pos (by decide)) fits

end ShortDecimal

/-! ## All doubles -/

namespace Double

theorem quotientMagnitude_lt (num den : ℕ) : quotientMagnitude num den < 2 ^ 63 := by
  refine lt_of_le_of_lt ?_ infiniteMagnitude_lt
  unfold quotientMagnitude
  split
  · exact Nat.zero_le _
  · exact min_le_right _ _

/-- What is shown of a finite double is not too large to be read as one. -/
theorem millionths_lt_overflowBound {x : Double} (finite : x.isFinite = true) :
    (x.millionths : ℚ) / 10 ^ 6 < overflowBound := by
  obtain ⟨steps, t, bits, same, bounded⟩ := x.exists_magnitude_eq
  have greatest : x.magnitude ≤ (2 ^ 53 - 1) * unit 2045 := by
    have full : (t : ℚ) + 1 ≤ 2 ^ 53 := by exact_mod_cast bits
    rw [same]
    exact mul_le_mul (by linarith) (unit_mono (bounded finite)) (unit_pos steps).le (by norm_num)
  have one : (1 : ℚ) ≤ unit 2045 := (unit_mono (show 1074 ≤ 2045 by decide)).trans' (by simp [unit])
  have near := (abs_le.1 x.abs_millionths_sub_le).2
  rw [overflowBound]
  linarith

/-- The double that is read from the text of another one. -/
structure Rereads (x w : Double) : Prop where
  parsed : ofText? x.fixedText = some w
  text : w.fixedText = x.fixedText
  finite : x.isFinite = true → w.isFinite = true ∧ w.isNegative = x.isNegative
  /-- No finite double is nearer to the decimal that is shown. -/
  nearest : x.isFinite = true → ∀ y : Double, y.isFinite = true →
    |w.value - (ShortDecimal.ofMillionths x.isNegative x.millionths).value| ≤
      |y.value - (ShortDecimal.ofMillionths x.isNegative x.millionths).value|
  nan : x.isNaN = true → w.isNaN = true
  infinite : x.isFinite = false → x.isNaN = false → w = x

theorem magnitude_nonneg (x : Double) : 0 ≤ x.magnitude := by
  rw [magnitude_eq]
  exact mul_nonneg (Nat.cast_nonneg _) (zpow_pos two_pos _).le

/-- Doubles of the other sign are farther away. -/
theorem IsNearest.value {w : Double} {r : ℚ} (nearest : w.IsNearest r) (nonneg : 0 ≤ r) (y : Double)
    (finite : y.isFinite = true) :
    |w.value - signed w.isNegative r| ≤ |y.value - signed w.isNegative r| := by
  have size (negative : Bool) (a : ℚ) : |signed negative a| = |a| := by
    cases negative with
    | false => rfl
    | true => exact abs_neg a
  have apart := abs_abs_sub_abs_le y.value (signed w.isNegative r)
  rw [Double.value, size, size, abs_of_nonneg y.magnitude_nonneg, abs_of_nonneg nonneg] at apart
  rw [Double.value, abs_signed_sub]
  exact (nearest.near y finite).trans apart

theorem rereads_of_finite {x : Double} (finite : x.isFinite = true) : ∃ w, x.Rereads w := by
  obtain ⟨decimal, same⟩ : ∃ decimal, decimal = ShortDecimal.ofMillionths x.isNegative x.millionths :=
    ⟨_, rfl⟩
  have amount : decimal.magnitude = x.millionths / 10 ^ 6 := by
    rw [same, ShortDecimal.magnitude_ofMillionths]
  have nearest := decimal.isNearest_double (amount ▸ millionths_lt_overflowBound finite)
  have sign : decimal.double.isNegative = x.isNegative := by
    rw [ShortDecimal.double, isNegative_ofMagnitude (quotientMagnitude_lt _ _), same]
    rfl
  have text := fixedText_eq finite
  refine ⟨decimal.double, ?_⟩
  constructor
  case parsed => rw [text, ← same, ShortDecimal.ofText?_text]
  case text =>
    have alike : decimal.double.millionths = x.millionths :=
      millionths_eq_of_nearer (amount ▸ nearest.near x finite)
    rw [fixedText_eq nearest.finite, alike, sign, text]
  case finite => exact fun _ => ⟨nearest.finite, sign⟩
  case nearest =>
    intro _ y other
    rw [ShortDecimal.value_ofMillionths, ← sign, ← amount]
    refine nearest.value ?_ y other
    rw [amount]
    positivity
  case nan =>
    intro nan
    rw [isNaN, Bool.and_eq_true, beq_iff_eq] at nan
    rw [isFinite, bne_iff_ne] at finite
    exact absurd nan.1 finite
  case infinite =>
    intro infinite
    rw [finite] at infinite
    cases infinite

/-- An infinity is known from its sign. -/
theorem eq_ofMagnitude_of_infinite {x : Double} (infinite : x.isFinite = false)
    (number : x.isNaN = false) : x = ofMagnitude x.isNegative infiniteMagnitude := by
  have field : x.exponentField = 2047 := by
    rw [isFinite, bne_eq_false_iff_eq] at infinite
    exact infinite
  have fraction : x.fractionField = 0 := by
    rw [isNaN, field] at number
    simpa using number
  have size := x.bits.toNat_lt
  have limit : infiniteMagnitude = 2047 * 2 ^ 52 := rfl
  have bits : x.bits = (ofMagnitude x.isNegative infiniteMagnitude).bits := by
    rw [← UInt64.toNat_inj, toNat_ofMagnitude infiniteMagnitude_lt, isNegative, Nat.pow_eq,
      limit]
    rw [exponentField, Nat.pow_eq, Nat.pow_eq] at field
    rw [fractionField, Nat.pow_eq] at fraction
    by_cases high : 2 ^ 63 ≤ x.bits.toNat
    · rw [if_pos (decide_eq_true high)]
      omega
    · rw [if_neg (mt of_decide_eq_true high)]
      omega
  cases x
  exact congrArg Double.mk bits

theorem fixedText_of_not_finite {x : Double} (infinite : x.isFinite = false) :
    x.fixedText = x.wordText := by
  rw [fixedText, if_pos (by rw [infinite]; rfl)]

/-- The words are read as the doubles that they are written for, except for the bits of a NaN. -/
theorem rereads_of_not_finite {x : Double} (infinite : x.isFinite = false) : ∃ w, x.Rereads w := by
  have text := fixedText_of_not_finite infinite
  have contra {P : Prop} : x.isFinite = true → P := by
    intro finite
    rw [infinite] at finite
    cases finite
  cases nan : x.isNaN with
  | true =>
    have word : x.fixedText = "NaN".toList := by rw [text, wordText, if_pos nan]
    refine ⟨ofMagnitude false nanMagnitude, ?_, ?_, contra, contra, fun _ => rfl, ?_⟩
    · rw [word]
      decide
    · rw [word]
      decide
    · rw [nan]
      exact fun _ number => nomatch number
  | false =>
    have same := eq_ofMagnitude_of_infinite infinite nan
    refine ⟨x, ?_, rfl, contra, contra, ?_, fun _ _ => rfl⟩
    · rw [same]
      cases x.isNegative <;> decide
    · rw [nan]
      exact fun number => nomatch number

theorem exists_rereads (x : Double) : ∃ w, x.Rereads w := by
  cases finite : x.isFinite with
  | true => exact rereads_of_finite finite
  | false => exact rereads_of_not_finite finite

end Double

namespace Machine

variable {machine : Machine} {state : State}

theorem parseFloat_makesNew {value : Ref} {bytes : Bytes} {number : Double}
    (complete : machine.Complete)
    (held : state.heap.get value = ⟨machine.ids.string, .string bytes⟩)
    (parsed : Double.ofText? (Utf8.decodeLossy bytes) = some number) :
    (machine.send StringMethod.parseFloat.slot [value]).MakesNew state
      ⟨machine.ids.float, .float number⟩ := by
  have sent : machine.send StringMethod.parseFloat.slot [value] state =
      machine.newFloat number state := by
    rw [send_string complete (by rw [held]) rfl]
    refine (Exec.bind_ok (Arguments.receiver_ok (by rw [held]; rfl))).trans ?_
    simp only [parsed]
  exact (Exec.makesNew_alloc _ state).of_eq sent

/-- **Showing a float is stable under parsing.** Whatever bits a double has, its text is parsed as a
float, never as `None`, and that float has the same text. It is a nearest one to the decimal that is
shown, an infinity of the same sign, or a NaN. -/
theorem rereads (live : machine.Live state) (value : Ref) (x : Double)
    (held : state.heap.get value = ⟨machine.ids.float, .float x⟩) :
    ∃ w text shown copy parsed again last, x.Rereads w ∧
      machine.textOf value state = .ok text shown ∧
      shown.heap.Holds text ⟨machine.ids.string, .string (Utf8.encode x.fixedText)⟩ ∧
      machine.send StringMethod.parseFloat.slot [text] shown = .ok copy parsed ∧
      parsed.heap.Holds copy ⟨machine.ids.float, .float w⟩ ∧
      machine.textOf copy parsed = .ok again last ∧
      last.heap.Holds again ⟨machine.ids.string, .string (Utf8.encode x.fixedText)⟩ := by
  have complete := live.complete
  obtain ⟨w, rereads⟩ := x.exists_rereads
  obtain ⟨text, shown, ran, written, _⟩ := textOf_float complete held
  have reading : Double.ofText? (Utf8.decodeLossy (Utf8.encode x.fixedText)) = some w := by
    rw [Utf8.decodeLossy_encode, rereads.parsed]
  obtain ⟨copy, parsed, ran', float, _⟩ := parseFloat_makesNew complete written.get reading
  obtain ⟨again, last, ran'', rewritten, _⟩ := textOf_float complete float.get
  rw [rereads.text] at rewritten
  exact ⟨w, text, shown, copy, parsed, again, last, rereads, ran, written, ran', float, ran'',
    rewritten⟩

/-- On the machine with builtin types only: the double nearest to minus a billionth, the greatest
double, and a NaN with a payload and a sign. -/
def floatState : State :=
  let float (bits : UInt64) : Box := ⟨bare.ids.float, .float ⟨bits⟩⟩
  { bareState with heap := ⟨bareState.heap.boxes ++ #[float 0xBE112E0BE826D695,
    float 0x7FEFFFFFFFFFFFFF, float 0xFFF0000000000001]⟩ }

theorem rereads_extremes : bare.Live floatState ∧
    (∃ w : Double, w.fixedText = ['-', '0'] ∧ Double.Rereads ⟨0xBE112E0BE826D695⟩ w) ∧
    (∃ w : Double, w.isFinite = true ∧ Double.Rereads ⟨0x7FEFFFFFFFFFFFFF⟩ w) ∧
    ∃ w : Double, w.isNaN = true ∧ Double.Rereads ⟨0xFFF0000000000001⟩ w := by
  have live : bare.Live floatState := live_bare_append _
  obtain ⟨tiny, _, _, _, _, _, _, first, _⟩ := rereads live ⟨6⟩ ⟨0xBE112E0BE826D695⟩ rfl
  obtain ⟨huge, _, _, _, _, _, _, second, _⟩ := rereads live ⟨7⟩ ⟨0x7FEFFFFFFFFFFFFF⟩ rfl
  obtain ⟨none, _, _, _, _, _, _, third, _⟩ := rereads live ⟨8⟩ ⟨0xFFF0000000000001⟩ rfl
  refine ⟨live, ⟨tiny, ?_, first⟩, ⟨huge, (second.finite (by decide)).1, second⟩, none,
    third.nan (by decide), third⟩
  rw [first.text]
  decide +kernel

end Machine

end BoxedValues
