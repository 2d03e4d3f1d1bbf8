import BoxedValues.Double.Decimal

/-!
# Numerals that are read back

* `Numeral.toInt64?_ofInt`: the decimal numeral of a 64-bit number is read as that number;
* `FloatText` is what a number with a fraction may look like, and `FloatText.value` the double that
  it is read as: there always is one.
-/

set_option autoImplicit false

namespace BoxedValues

/-! ## Digits -/

/-- One or more decimal digits. -/
structure Digits where
  text : List Char
  nonempty : text ≠ []
  isDigit : ∀ c ∈ text, Double.isDigit c = true

namespace Digits

/-- The text does not go on with a digit. -/
def EndBefore (rest : List Char) : Prop := ∀ c ∈ rest.head?, Double.isDigit c = false

theorem endBefore_nil : EndBefore [] := nofun

theorem endBefore_cons {c : Char} {rest : List Char} (h : Double.isDigit c = false) :
    EndBefore (c :: rest) := by
  rintro other ⟨⟩
  exact h

variable {digits : Digits} {rest : List Char}

theorem takeWhile_append (digits : Digits) (h : EndBefore rest) :
    (digits.text ++ rest).takeWhile Double.isDigit = digits.text := by
  rw [List.takeWhile_append_of_pos digits.isDigit]
  cases rest with
  | nil => simp
  | cons c rest => rw [List.takeWhile_cons_of_neg (by simp [h c rfl]), List.append_nil]

theorem dropWhile_append (digits : Digits) (h : EndBefore rest) :
    (digits.text ++ rest).dropWhile Double.isDigit = rest := by
  rw [List.dropWhile_append_of_pos digits.isDigit]
  cases rest with
  | nil => rfl
  | cons c rest => exact List.dropWhile_cons_of_neg (by simp [h c rfl])

/-- The first of the digits, and the others. -/
theorem exists_cons (digits : Digits) :
    ∃ c rest, digits.text = c :: rest ∧ Double.isDigit c = true := by
  obtain ⟨c, rest, same⟩ := List.exists_cons_of_ne_nil digits.nonempty
  exact ⟨c, rest, same, digits.isDigit c (by rw [same]; exact .head rest)⟩

/-- They begin with nothing but a digit. -/
theorem ne_cons_of_not_isDigit (digits : Digits) (rest : List Char) {c : Char}
    (h : Double.isDigit c = false) (tail : List Char) : digits.text ++ rest ≠ c :: tail := by
  obtain ⟨first, others, same, digit⟩ := digits.exists_cons
  rw [same, List.cons_append]
  rintro ⟨⟩
  rw [h] at digit
  cases digit

/-- The decimal digits of a natural number. -/
def ofNat (n : Nat) : Digits where
  text := Numeral.ofNat n
  nonempty := Nat.toDigits_ne_nil
  isDigit c mem := by
    have digit := Nat.isDigit_of_mem_toDigits (by decide) (by decide) mem
    simpa [Char.isDigit, Double.isDigit, Char.le_def] using digit

end Digits

namespace Numeral

/-- A text behind a minus sign, or as it is. -/
def signed (negative : Bool) (text : List Char) : List Char :=
  if negative then '-' :: text else text

theorem ofInt_eq_signed (i : Int) : ∃ negative n, ofInt i = signed negative (ofNat n) := by
  cases i with
  | ofNat n => exact ⟨false, n, rfl⟩
  | negSucc n => exact ⟨true, n + 1, rfl⟩

variable {c : Char}

theorem digitBelow?_of_isDigit (h : Double.isDigit c = true) :
    digitBelow? 10 c = some (c.toNat - '0'.toNat) := by
  simp only [Double.isDigit, Bool.and_eq_true, decide_eq_true_eq] at h
  have small : c.toNat - '0'.toNat < 10 := by
    have := h.2
    simp only [Char.le_def, UInt32.le_iff_toNat_le] at this
    change c.toNat ≤ 57 at this
    change c.toNat - 48 < 10
    omega
  rw [digitBelow?, digit?, if_pos h, Option.filter_some, if_pos (by simpa using small)]

theorem mapM_digits {text : List Char} (h : ∀ c ∈ text, Double.isDigit c = true) :
    text.mapM (digitBelow? 10) = some (text.map fun c => c.toNat - '0'.toNat) := by
  induction text with
  | nil => rfl
  | cons c rest ih =>
    rw [List.mapM_cons, digitBelow?_of_isDigit (h c (.head rest)),
      ih fun c mem => h c (.tail _ mem)]
    rfl

theorem natural?_digits (digits : Digits) :
    natural? 10 digits.text = some (Double.digitsValue digits.text) := by
  unfold natural?
  rw [if_neg (mt List.isEmpty_iff.1 digits.nonempty), mapM_digits digits.isDigit]
  rfl

theorem digitsValue_eq_ofDigitChars (text : List Char) :
    Double.digitsValue text = Nat.ofDigitChars 10 text 0 := by
  unfold Double.digitsValue Nat.ofDigitChars
  rw [value_eq_foldl, List.foldl_map]
  simp only [Nat.mul_comm]

theorem digitsValue_ofNat (n : Nat) : Double.digitsValue (ofNat n) = n := by
  rw [digitsValue_eq_ofDigitChars]
  exact Nat.ofDigitChars_toDigits (by decide) (by decide)

theorem splitSign_digits (digits : Digits) (rest : List Char) :
    splitSign (digits.text ++ rest) = (false, digits.text ++ rest) := by
  rw [splitSign]
  · exact digits.ne_cons_of_not_isDigit rest rfl
  · exact digits.ne_cons_of_not_isDigit rest rfl

theorem splitSign_signed (negative : Bool) (digits : Digits) :
    splitSign (signed negative digits.text) = (negative, digits.text) := by
  cases negative with
  | true => rfl
  | false =>
    have unsigned := splitSign_digits digits []
    rwa [List.append_nil] at unsigned

/-- Digits behind a minus or not spell their value. -/
theorem integer?_signed (negative : Bool) (digits : Digits) :
    integer? 10 (signed negative digits.text) =
      some (if negative then -(Double.digitsValue digits.text : Int)
        else Double.digitsValue digits.text) := by
  have split := splitSign_signed negative digits
  unfold integer?
  rw [split]
  dsimp only
  rw [natural?_digits]
  rfl

/-- The numeral of an integer spells it. -/
theorem integer?_ofInt (i : Int) : integer? 10 (ofInt i) = some i := by
  cases i with
  | ofNat n =>
    have spelled := integer?_signed false (.ofNat n)
    rwa [Digits.ofNat, digitsValue_ofNat] at spelled
  | negSucc n =>
    have spelled := integer?_signed true (.ofNat (n + 1))
    rwa [Digits.ofNat, digitsValue_ofNat] at spelled

/-- A machine word has one integer, which is in range. -/
theorem int64?_eq_some_iff {i : Int} {value : Int64} : int64? i = some value ↔ i = value.toInt := by
  have least := Int64.toInt_minValue
  have greatest := Int64.toInt_maxValue
  unfold int64?
  constructor
  · intro h
    split at h
    · rename_i fits
      cases h
      exact (Int64.toInt_ofInt_of_le (by omega) (by omega)).symm
    · cases h
  · rintro rfl
    rw [if_pos ⟨Int64.minValue_le_toInt value, Int64.toInt_le value⟩, Int64.ofInt_toInt]

/-- The numeral of a 64-bit number is read as that number. -/
theorem toInt64?_ofInt (value : Int64) : toInt64? 10 (ofInt value.toInt) = some value := by
  rw [toInt64?, integer?_ofInt, Option.bind_some, int64?_eq_some_iff]

end Numeral

/-! ## Numbers with a fraction -/

/-- What the exponent of a number may look like. -/
structure ExponentText where
  capital : Bool
  /-- The sign, if there is one: whether it is a minus. -/
  sign : Option Bool
  digits : Digits

namespace ExponentText

def letter (exponent : ExponentText) : Char := if exponent.capital then 'E' else 'e'

/-- The characters between the letter and the digits. -/
def signText (exponent : ExponentText) : List Char :=
  match exponent.sign with
  | none => []
  | some false => ['+']
  | some true => ['-']

def text (exponent : ExponentText) : List Char :=
  exponent.letter :: (exponent.signText ++ exponent.digits.text)

theorem letter_eq (exponent : ExponentText) : exponent.letter = 'e' ∨ exponent.letter = 'E' := by
  unfold letter
  cases exponent.capital with
  | false => exact .inl rfl
  | true => exact .inr rfl

/-- Digits in front of an exponent end there. -/
theorem endBefore_text (exponent : ExponentText) (rest : List Char) :
    Digits.EndBefore (exponent.text ++ rest) := by
  refine Digits.endBefore_cons ?_
  rcases exponent.letter_eq with letter | letter
  · rw [letter]
    rfl
  · rw [letter]
    rfl

end ExponentText

/-- What a number with a fraction may look like: an optional minus, digits, a point, digits and an
optional exponent. -/
structure FloatText where
  negative : Bool
  whole : Digits
  fraction : Digits
  exponent : Option ExponentText

namespace FloatText

/-- The characters of the exponent, if there is one. -/
def exponentText (float : FloatText) : List Char :=
  match float.exponent with
  | none => []
  | some exponent => exponent.text

/-- The digits of the fraction end before the exponent. -/
theorem endBefore_exponentText (float : FloatText) {rest : List Char} (h : Digits.EndBefore rest) :
    Digits.EndBefore (float.exponentText ++ rest) := by
  unfold exponentText
  cases float.exponent with
  | none => exact h
  | some exponent => exact exponent.endBefore_text rest

/-- The characters without the sign. -/
def magnitudeText (float : FloatText) : List Char :=
  float.whole.text ++ '.' :: (float.fraction.text ++ float.exponentText)

def text (float : FloatText) : List Char := Numeral.signed float.negative float.magnitudeText

theorem splitSign_text (float : FloatText) :
    Numeral.splitSign float.text = (float.negative, float.magnitudeText) := by
  unfold text
  cases float.negative with
  | true => rfl
  | false => exact Numeral.splitSign_digits float.whole _

end FloatText

namespace Double

/-- Every exponent that is written out has a value. -/
theorem exponent?_text (exponent : ExponentText) : (exponent? exponent.text).isSome := by
  have split : ∃ negative, Numeral.splitSign (exponent.signText ++ exponent.digits.text) =
      (negative, exponent.digits.text) := by
    unfold ExponentText.signText
    match exponent.sign with
    | none =>
      have unsigned := Numeral.splitSign_digits exponent.digits []
      rw [List.append_nil] at unsigned
      exact ⟨false, unsigned⟩
    | some false => exact ⟨false, rfl⟩
    | some true => exact ⟨true, rfl⟩
  obtain ⟨negative, split⟩ := split
  have magnitude : ∃ n, exponentMagnitude? exponent.digits.text = some n := by
    unfold exponentMagnitude?
    rw [if_neg (mt List.isEmpty_iff.1 exponent.digits.nonempty),
      Numeral.mapM_digits exponent.digits.isDigit]
    exact ⟨_, rfl⟩
  obtain ⟨n, magnitude⟩ := magnitude
  unfold ExponentText.text exponent?
  simp only [split, if_pos exponent.letter_eq, magnitude]
  rfl

/-- Every number with a fraction is read as a double. -/
theorem ofText?_isSome (float : FloatText) : (ofText? float.text).isSome := by
  have exponent : (exponent? float.exponentText).isSome := by
    unfold FloatText.exponentText
    cases float.exponent with
    | none => rfl
    | some exponent => exact exponent?_text exponent
  have ends := float.endBefore_exponentText Digits.endBefore_nil
  rw [List.append_nil] at ends
  have point : Digits.EndBefore ('.' :: (float.fraction.text ++ float.exponentText)) :=
    Digits.endBefore_cons (by decide)
  have magnitude : (numeralMagnitude? float.magnitudeText).isSome := by
    unfold numeralMagnitude? FloatText.magnitudeText
    simp only [Digits.takeWhile_append _ point, Digits.dropWhile_append _ point,
      Digits.takeWhile_append _ ends, Digits.dropWhile_append _ ends,
      List.isEmpty_eq_false_iff.2 float.whole.nonempty]
    simpa using exponent
  unfold ofText?
  rw [FloatText.splitSign_text]
  simp only [Option.isSome_map]
  cases wordMagnitude? float.magnitudeText with
  | none => exact magnitude
  | some word => rfl

end Double

/-- The double that a number with a fraction is read as. -/
def FloatText.value (float : FloatText) : Double :=
  (Double.ofText? float.text).get (Double.ofText?_isSome float)

theorem Double.ofText?_text (float : FloatText) : ofText? float.text = some float.value :=
  (Option.some_get _).symm

end BoxedValues
