import Mathlib.Data.List.Forall2
import Mathlib.Data.Nat.Digits.Defs
import BoxedValues.Proofs.Literal.Numerals

/-!
# Numerals in a radix

The positional system beside the functions that read numerals. A digit is known by its place among
ten decimal digits and the letters of one case; digits spell the number that `Nat.ofDigits` makes of
their values; a numeral is made of digits behind an optional sign.

* `integer?_eq_some_iff`: **a text is read as an integer just if it denotes it**;
* `toInt64?_eq_some_iff`: the same for machine words, whose range is the only further condition;
* `exists_denotes`: every integer has a numeral in each radix, by the digits of `Nat.digits`.
-/

set_option autoImplicit false

namespace BoxedValues.Numeral

/-! ## Digits -/

/-- The digits with small letters, each at the place of its value. -/
def smallDigits : List Char := "0123456789abcdefghijklmnopqrstuvwxyz".toList

/-- The digits with capital letters. -/
def capitalDigits : List Char := "0123456789ABCDEFGHIJKLMNOPQRSTUVWXYZ".toList

/-- The character is a digit of this value, in either case. -/
def IsDigit (c : Char) (digit : Nat) : Prop :=
  smallDigits[digit]? = some c ∨ capitalDigits[digit]? = some c

instance (c : Char) (digit : Nat) : Decidable (IsDigit c digit) :=
  inferInstanceAs (Decidable (_ ∨ _))

/-- The characters spell the number with their values as its digits, the most significant first. -/
def Spells (radix : Nat) (text : List Char) (n : Nat) : Prop :=
  ∃ digits : List Nat, digits ≠ [] ∧ (∀ digit ∈ digits, digit < radix) ∧
    List.Forall₂ IsDigit text digits ∧ n = Nat.ofDigits radix digits.reverse

/-- The text is a numeral of the integer: digits that spell its amount, and perhaps a sign. -/
inductive Denotes (radix : Nat) : List Char → Int → Prop where
  | plain {text : List Char} {n : Nat} : Spells radix text n → Denotes radix text n
  | plus {text : List Char} {n : Nat} : Spells radix text n → Denotes radix ('+' :: text) n
  | minus {text : List Char} {n : Nat} : Spells radix text n → Denotes radix ('-' :: text) (-n)

variable {radix n digit : Nat} {c : Char} {text : List Char} {i : Int}

theorem toNat_lt_of_digit? (h : digit? c = some digit) : c.toNat < 128 := by
  simp only [digit?, Char.le_def, UInt32.le_iff_toNat_le] at h
  change (if 48 ≤ c.toNat ∧ c.toNat ≤ 57 then _ else if 97 ≤ c.toNat ∧ c.toNat ≤ 122 then _ else
    if 65 ≤ c.toNat ∧ c.toNat ≤ 90 then _ else none) = some digit at h
  split at h
  · omega
  · split at h
    · omega
    · split at h
      · omega
      · cases h

/-- The places of the two lists are the values. -/
theorem digit?_eq_some_iff : digit? c = some digit ↔ IsDigit c digit := by
  constructor
  · intro h
    have among : ∀ code < 128, ∀ value ∈ digit? (Char.ofNat code), IsDigit (Char.ofNat code) value := by
      decide +kernel
    have found := among c.toNat (toNat_lt_of_digit? h) digit
    rw [Char.ofNat_toNat] at found
    exact found h
  · intro there
    have each : ∀ place < 36, (smallDigits[place]?.bind digit? = some place) ∧
        capitalDigits[place]?.bind digit? = some place := by decide +kernel
    have low : digit < 36 := by
      rcases there with found | found
      · exact (List.getElem?_eq_some_iff.1 found).1
      · exact (List.getElem?_eq_some_iff.1 found).1
    obtain ⟨small, capital⟩ := each digit low
    rcases there with found | found
    · rwa [found] at small
    · rwa [found] at capital

theorem digitBelow?_eq_some_iff :
    digitBelow? radix c = some digit ↔ IsDigit c digit ∧ digit < radix := by
  rw [digitBelow?, Option.filter_eq_some_iff, digit?_eq_some_iff, decide_eq_true_eq]

theorem not_isDigit_sign : ¬IsDigit '+' digit ∧ ¬IsDigit '-' digit := by
  constructor <;> exact fun h => nomatch digit?_eq_some_iff.2 h

/-! ## Digits that spell a number -/

/-- Every character is read as the digit below the radix that it is. -/
theorem mapM_digitBelow?_eq_some_iff {digits : List Nat} :
    text.mapM (digitBelow? radix) = some digits ↔
      (∀ digit ∈ digits, digit < radix) ∧ List.Forall₂ IsDigit text digits := by
  induction text generalizing digits with
  | nil =>
    rw [List.mapM_nil, List.forall₂_nil_left_iff]
    constructor
    · rintro ⟨⟩
      exact ⟨nofun, rfl⟩
    · rintro ⟨_, rfl⟩
      rfl
  | cons c text ih =>
    simp only [List.mapM_cons, Option.bind_eq_bind, Option.bind_eq_some_iff,
      digitBelow?_eq_some_iff, ih, Option.pure_def, Option.some.injEq]
    constructor
    · rintro ⟨digit, ⟨isDigit, below⟩, rest, ⟨belows, each⟩, rfl⟩
      exact ⟨List.forall_mem_cons.2 ⟨below, belows⟩, .cons isDigit each⟩
    · rintro ⟨belows, isDigit | ⟨isDigit, each⟩⟩
      obtain ⟨below, belows⟩ := List.forall_mem_cons.1 belows
      exact ⟨_, ⟨isDigit, below⟩, _, ⟨belows, each⟩, rfl⟩

theorem value_eq_ofDigits (radix : Nat) (digits : List Nat) :
    value radix digits = Nat.ofDigits radix digits.reverse := by
  rw [value, valueUp_eq_foldr, Nat.ofDigits_eq_foldr]
  rfl

theorem natural?_eq_some_iff : natural? radix text = some n ↔ Spells radix text n := by
  unfold natural? Spells
  by_cases empty : text = []
  · subst empty
    simp [List.forall₂_nil_left_iff]
  rw [if_neg (mt List.isEmpty_iff.1 empty), Option.map_eq_some_iff]
  refine exists_congr fun digits => ?_
  rw [mapM_digitBelow?_eq_some_iff, value_eq_ofDigits]
  constructor
  · rintro ⟨⟨below, each⟩, rfl⟩
    refine ⟨?_, below, each, rfl⟩
    rintro rfl
    exact empty (List.forall₂_nil_right_iff.1 each)
  · rintro ⟨_, below, each, rfl⟩
    exact ⟨⟨below, each⟩, rfl⟩

/-! ## Signs -/

/-- What digits spell does not begin with a sign. -/
theorem Spells.ne_sign (h : Spells radix text n) (rest : List Char) :
    text ≠ '+' :: rest ∧ text ≠ '-' :: rest := by
  obtain ⟨digits, _, _, each, _⟩ := h
  constructor <;> rintro rfl
  · cases each with
    | cons first _ => exact not_isDigit_sign.1 first
  · cases each with
    | cons first _ => exact not_isDigit_sign.2 first

theorem splitSign_cases (text : List Char) :
    (∃ rest, text = '-' :: rest ∧ splitSign text = (true, rest)) ∨
      (∃ rest, text = '+' :: rest ∧ splitSign text = (false, rest)) ∨
        splitSign text = (false, text) := by
  unfold splitSign
  split
  · exact .inl ⟨_, rfl, rfl⟩
  · exact .inr (.inl ⟨_, rfl, rfl⟩)
  · exact .inr (.inr rfl)

theorem integer?_of_splitSign {negative : Bool} {rest : List Char}
    (split : splitSign text = (negative, rest)) : integer? radix text =
      (natural? radix rest).map fun n : Nat => if negative then -(n : Int) else n := by
  unfold integer?
  rw [split]
  dsimp only
  cases natural? radix rest <;> rfl

/-- **Reading an integer in a radix is denotation in the positional system.** -/
theorem integer?_eq_some_iff : integer? radix text = some i ↔ Denotes radix text i := by
  constructor
  · intro h
    rcases splitSign_cases text with ⟨rest, rfl, split⟩ | ⟨rest, rfl, split⟩ | split
    all_goals
      rw [integer?_of_splitSign split] at h
      obtain ⟨n, read, rfl⟩ := Option.map_eq_some_iff.1 h
      have spelled := natural?_eq_some_iff.1 read
    · exact .minus spelled
    · exact .plus spelled
    · exact .plain spelled
  · intro denotes
    cases denotes with
    | plain spelled =>
      rcases splitSign_cases text with ⟨rest, begins, _⟩ | ⟨rest, begins, _⟩ | split
      · exact absurd begins (spelled.ne_sign rest).2
      · exact absurd begins (spelled.ne_sign rest).1
      · rw [integer?_of_splitSign split, natural?_eq_some_iff.2 spelled]
        rfl
    | @plus rest n spelled =>
      have split : splitSign ('+' :: rest) = (false, rest) := rfl
      rw [integer?_of_splitSign split, natural?_eq_some_iff.2 spelled]
      rfl
    | @minus rest n spelled =>
      have split : splitSign ('-' :: rest) = (true, rest) := rfl
      rw [integer?_of_splitSign split, natural?_eq_some_iff.2 spelled]
      rfl

/-! ## Machine words -/

theorem toInt64?_eq_some_iff {value : Int64} :
    toInt64? radix text = some value ↔ Denotes radix text value.toInt := by
  rw [toInt64?, Option.bind_eq_some_iff]
  constructor
  · rintro ⟨i, read, fits⟩
    rw [← int64?_eq_some_iff.1 fits]
    exact integer?_eq_some_iff.1 read
  · exact fun denotes => ⟨_, integer?_eq_some_iff.2 denotes, int64?_eq_some_iff.2 rfl⟩

/-! ## Every integer has a numeral -/

theorem exists_isDigit (low : digit < 36) : ∃ c, IsDigit c digit :=
  ⟨smallDigits.get ⟨digit, low⟩, .inl (List.getElem?_eq_getElem low)⟩

theorem exists_forall₂_isDigit {digits : List Nat} (low : ∀ digit ∈ digits, digit < 36) :
    ∃ text, List.Forall₂ IsDigit text digits := by
  induction digits with
  | nil => exact ⟨[], .nil⟩
  | cons digit digits ih =>
    obtain ⟨c, first⟩ := exists_isDigit (low digit (.head digits))
    obtain ⟨text, rest⟩ := ih fun other mem => low other (.tail digit mem)
    exact ⟨c :: text, .cons first rest⟩

theorem exists_spells (least : 2 ≤ radix) (greatest : radix ≤ 36) (n : Nat) :
    ∃ text, Spells radix text n := by
  -- `Nat.digits` has no digits for zero, so a leading zero is put before all of them.
  have below : ∀ digit ∈ 0 :: (Nat.digits radix n).reverse, digit < radix := by
    refine List.forall_mem_cons.2 ⟨by omega, fun digit mem => ?_⟩
    exact Nat.digits_lt_base (by omega) (List.mem_reverse.1 mem)
  obtain ⟨text, each⟩ := exists_forall₂_isDigit fun digit mem => (below digit mem).trans_le greatest
  refine ⟨text, 0 :: (Nat.digits radix n).reverse, nofun, below, each, ?_⟩
  rw [List.reverse_cons, List.reverse_reverse, Nat.ofDigits_append, Nat.ofDigits_digits,
    Nat.ofDigits_singleton]
  simp

theorem exists_denotes (least : 2 ≤ radix) (greatest : radix ≤ 36) (i : Int) :
    ∃ text, Denotes radix text i := by
  obtain ⟨text, spelled⟩ := exists_spells least greatest i.natAbs
  rcases Int.natAbs_eq i with same | same
  · rw [same]
    exact ⟨text, .plain spelled⟩
  · rw [same]
    exact ⟨'-' :: text, .minus spelled⟩

theorem denotes_ofInt (i : Int) : Denotes 10 (ofInt i) i := integer?_eq_some_iff.1 (integer?_ofInt i)

end BoxedValues.Numeral
