import Mathlib.Computability.Language
import BoxedValues.Literal.Token
import BoxedValues.Proofs.Literal.Numerals

/-!
# The patterns of tokens

What tokens look like, as regular languages of texts, without a word about how they are looked for.

* `integer`, `float`, `string` and `keyword` are the patterns, `any` is their union;
* `mem_integer_iff`, `mem_float_iff` and `mem_keyword_iff` name the parts of what matches;
* `quote_notMem_items`, `backslash_mem_items_iff` and `plain_mem_items_iff` take the items of a string
  apart from the left;
* `Longest` says that a part is the longest beginning of a text in a language.
-/

set_option autoImplicit false

open scoped Computability

namespace BoxedValues.Pattern

/-! ## The patterns -/

/-- One character of a class. -/
def oneOf (admits : Char → Prop) : Language Char := {text | ∃ c, admits c ∧ text = [c]}

/-- One text. -/
def word (spelling : List Char) : Language Char := {spelling}

/-- What matches, or nothing. -/
def optional (language : Language Char) : Language Char := 1 + language

/-- One of `0` to `9`. -/
def digit : Language Char := oneOf fun c => '0' ≤ c ∧ c ≤ '9'

/-- One or more digits: `[0-9]+`. -/
def digits : Language Char := digit * digit∗

/-- Whole numbers: `-?[0-9]+`. -/
def integer : Language Char := optional (word ['-']) * digits

/-- Exponents: `[eE][+-]?[0-9]+`. -/
def exponent : Language Char :=
  oneOf (fun c => c = 'e' ∨ c = 'E') * optional (oneOf fun c => c = '+' ∨ c = '-') * digits

/-- Fractions: `\.[0-9]+([eE][+-]?[0-9]+)?`. -/
def fraction : Language Char := word ['.'] * digits * optional exponent

/-- Numbers with a fraction: `-?[0-9]+\.[0-9]+([eE][+-]?[0-9]+)?`. -/
def float : Language Char := integer * fraction

/-- An item of a string: a character other than quotation mark and backslash, or a backslash with
any character but a line feed. -/
def item : Language Char :=
  oneOf (fun c => c ≠ '"' ∧ c ≠ '\\') + word ['\\'] * oneOf fun c => c ≠ '\n'

/-- The items of a string behind its opening quotation mark. -/
def opened : Language Char := word ['"'] * item∗

/-- Strings: `"([^"\\]|\\.)*"`. -/
def string : Language Char := opened * word ['"']

/-- The words and the punctuation. -/
def keyword : Language Char :=
  word "None".toList + word "true".toList + word "false".toList + word ['['] + word [']'] +
    word [','] + word [':']

/-- Every text that is a token. -/
def any : Language Char := keyword + integer + float + string

variable {c d : Char} {text part other rest : List Char}

/-! ## The parts of a match -/

theorem mem_oneOf_iff {admits : Char → Prop} : text ∈ oneOf admits ↔ ∃ c, admits c ∧ text = [c] :=
  Iff.rfl

theorem mem_word_iff : text ∈ word part ↔ text = part := Set.mem_singleton_iff

theorem mem_optional_iff {language : Language Char} :
    text ∈ optional language ↔ text = [] ∨ text ∈ language := by
  rw [optional, Language.mem_add, Language.mem_one]

theorem mem_digit_iff : text ∈ digit ↔ ∃ c, Double.isDigit c = true ∧ text = [c] := by
  simp only [digit, mem_oneOf_iff, Double.isDigit, Bool.and_eq_true, decide_eq_true_eq]

theorem mem_digit_kstar_iff : text ∈ digit∗ ↔ ∀ c ∈ text, Double.isDigit c = true := by
  constructor
  · rintro ⟨parts, rfl, all⟩ c mem
    obtain ⟨part, partMem, cMem⟩ := List.mem_flatten.1 mem
    obtain ⟨d, isDigit, rfl⟩ := mem_digit_iff.1 (all part partMem)
    rwa [List.mem_singleton.1 cMem]
  · intro all
    refine ⟨text.map fun c => [c], ?_, ?_⟩
    · induction text with
      | nil => rfl
      | cons c rest ih =>
        rw [List.map_cons, List.flatten_cons, ← ih fun c mem => all c (.tail _ mem)]
        rfl
    · intro part mem
      obtain ⟨c, cMem, rfl⟩ := List.mem_map.1 mem
      exact mem_digit_iff.2 ⟨c, all c cMem, rfl⟩

theorem mem_digits_iff : text ∈ digits ↔ ∃ digits : Digits, digits.text = text := by
  rw [digits, Language.mem_mul]
  constructor
  · rintro ⟨first, firstMem, more, moreMem, rfl⟩
    obtain ⟨c, isDigit, rfl⟩ := mem_digit_iff.1 firstMem
    refine ⟨⟨c :: more, List.cons_ne_nil c more, ?_⟩, rfl⟩
    exact List.forall_mem_cons.2 ⟨isDigit, mem_digit_kstar_iff.1 moreMem⟩
  · rintro ⟨digits, rfl⟩
    obtain ⟨c, more, same, isDigit⟩ := digits.exists_cons
    have all := digits.isDigit
    rw [same] at all ⊢
    exact ⟨[c], mem_digit_iff.2 ⟨c, isDigit, rfl⟩, more,
      mem_digit_kstar_iff.2 fun c mem => all c (.tail _ mem), rfl⟩

/-- An integer is digits, behind a minus or not. -/
theorem mem_integer_iff : text ∈ integer ↔
    ∃ (negative : Bool) (digits : Digits), Numeral.signed negative digits.text = text := by
  rw [integer, Language.mem_mul]
  constructor
  · rintro ⟨sign, signMem, more, moreMem, rfl⟩
    obtain ⟨digits, rfl⟩ := mem_digits_iff.1 moreMem
    rcases mem_optional_iff.1 signMem with rfl | minus
    · exact ⟨false, digits, rfl⟩
    · rw [mem_word_iff.1 minus]
      exact ⟨true, digits, rfl⟩
  · rintro ⟨negative, digits, rfl⟩
    have digitsMem := mem_digits_iff.2 ⟨digits, rfl⟩
    cases negative with
    | false => exact ⟨[], mem_optional_iff.2 (.inl rfl), digits.text, digitsMem, rfl⟩
    | true => exact ⟨['-'], mem_optional_iff.2 (.inr rfl), digits.text, digitsMem, rfl⟩

theorem mem_exponent_iff : text ∈ exponent ↔ ∃ exponent : ExponentText, exponent.text = text := by
  rw [exponent, mul_assoc, Language.mem_mul]
  constructor
  · rintro ⟨letter, ⟨c, isLetter, rfl⟩, more, moreMem, rfl⟩
    obtain ⟨sign, signMem, last, lastMem, rfl⟩ := Language.mem_mul.1 moreMem
    obtain ⟨digits, rfl⟩ := mem_digits_iff.1 lastMem
    have capital : ∃ capital : Bool, (if capital then 'E' else 'e') = c :=
      isLetter.elim (fun small => ⟨false, small.symm⟩) fun large => ⟨true, large.symm⟩
    obtain ⟨capital, rfl⟩ := capital
    rcases mem_optional_iff.1 signMem with rfl | ⟨d, rfl | rfl, rfl⟩
    · exact ⟨⟨capital, none, digits⟩, rfl⟩
    · exact ⟨⟨capital, some false, digits⟩, rfl⟩
    · exact ⟨⟨capital, some true, digits⟩, rfl⟩
  · rintro ⟨exponent, rfl⟩
    have digitsMem := mem_digits_iff.2 ⟨exponent.digits, rfl⟩
    refine ⟨[exponent.letter], ⟨_, exponent.letter_eq, rfl⟩, _, ?_, rfl⟩
    refine Language.append_mem_mul (mem_optional_iff.2 ?_) digitsMem
    unfold ExponentText.signText
    match exponent.sign with
    | none => exact .inl rfl
    | some false => exact .inr ⟨'+', .inl rfl, rfl⟩
    | some true => exact .inr ⟨'-', .inr rfl, rfl⟩

/-- The exponent of a number, if there is one. -/
theorem mem_optional_exponent_iff : text ∈ optional exponent ↔
    ∃ exponent : Option ExponentText, exponent.elim [] ExponentText.text = text := by
  rw [mem_optional_iff, mem_exponent_iff]
  constructor
  · rintro (rfl | ⟨exponent, rfl⟩)
    · exact ⟨none, rfl⟩
    · exact ⟨some exponent, rfl⟩
  · rintro ⟨_ | exponent, rfl⟩
    · exact .inl rfl
    · exact .inr ⟨exponent, rfl⟩

/-- A fraction is a point, digits and an optional exponent. -/
theorem mem_fraction_iff : text ∈ fraction ↔ ∃ (digits : Digits) (exponent : Option ExponentText),
    '.' :: (digits.text ++ exponent.elim [] ExponentText.text) = text := by
  rw [fraction, mul_assoc, Language.mem_mul]
  constructor
  · rintro ⟨_, rfl, more, moreMem, rfl⟩
    obtain ⟨first, firstMem, last, lastMem, rfl⟩ := Language.mem_mul.1 moreMem
    obtain ⟨digits, rfl⟩ := mem_digits_iff.1 firstMem
    obtain ⟨exponent, rfl⟩ := mem_optional_exponent_iff.1 lastMem
    exact ⟨digits, exponent, rfl⟩
  · rintro ⟨digits, exponent, rfl⟩
    have digitsMem := mem_digits_iff.2 ⟨digits, rfl⟩
    have exponentMem := mem_optional_exponent_iff.2 ⟨exponent, rfl⟩
    exact ⟨['.'], mem_word_iff.2 rfl, _, Language.append_mem_mul digitsMem exponentMem, rfl⟩

/-- A number with a fraction is what is read as a double. -/
theorem mem_float_iff : text ∈ float ↔ ∃ float : FloatText, float.text = text := by
  rw [float, Language.mem_mul]
  constructor
  · rintro ⟨own, ownMem, more, moreMem, rfl⟩
    obtain ⟨negative, whole, rfl⟩ := mem_integer_iff.1 ownMem
    obtain ⟨digits, exponent, rfl⟩ := mem_fraction_iff.1 moreMem
    refine ⟨⟨negative, whole, digits, exponent⟩, ?_⟩
    cases exponent <;> cases negative <;> rfl
  · rintro ⟨⟨negative, whole, digits, exponent⟩, rfl⟩
    refine ⟨_, mem_integer_iff.2 ⟨negative, whole, rfl⟩, _,
      mem_fraction_iff.2 ⟨digits, exponent, rfl⟩, ?_⟩
    cases exponent <;> cases negative <;> rfl

/-- The words and the punctuation are what has a token of its own. -/
theorem mem_keyword_iff : text ∈ keyword ↔ ∃ token, (text, token) ∈ Token.fixed := by
  simp only [keyword, Language.mem_add, mem_word_iff]
  simp [Token.fixed, exists_or, or_assoc]

/-! ## The items of a string -/

theorem nil_mem_items : ([] : List Char) ∈ item∗ := Language.nil_mem_kstar item

theorem mem_item_iff : text ∈ item ↔
    (∃ c, (c ≠ '"' ∧ c ≠ '\\') ∧ text = [c]) ∨ ∃ d, d ≠ '\n' ∧ text = ['\\', d] := by
  rw [item, Language.mem_add, mem_oneOf_iff, Language.mem_mul]
  refine or_congr_right ⟨?_, ?_⟩
  · rintro ⟨_, rfl, _, ⟨d, feed, rfl⟩, rfl⟩
    exact ⟨d, feed, rfl⟩
  · rintro ⟨d, feed, rfl⟩
    exact ⟨['\\'], mem_word_iff.2 rfl, [d], ⟨d, feed, rfl⟩, rfl⟩

/-- Items begin with a character of its own or with a backslash and another character. -/
theorem mem_items_cons_iff : c :: text ∈ item∗ ↔
    (c ≠ '"' ∧ c ≠ '\\') ∧ text ∈ item∗ ∨
      c = '\\' ∧ ∃ d rest, d ≠ '\n' ∧ text = d :: rest ∧ rest ∈ item∗ := by
  rw [← Language.one_add_self_mul_kstar_eq_kstar, Language.mem_add, Language.mem_one,
    Language.mem_mul, Language.one_add_self_mul_kstar_eq_kstar]
  constructor
  · rintro (nothing | ⟨first, firstMem, rest, restMem, same⟩)
    · cases nothing
    · rcases mem_item_iff.1 firstMem with ⟨d, plain, rfl⟩ | ⟨d, feed, rfl⟩
      · obtain ⟨rfl, rfl⟩ := List.cons.inj same
        exact .inl ⟨plain, restMem⟩
      · obtain ⟨rfl, rfl⟩ := List.cons.inj same
        exact .inr ⟨rfl, d, rest, feed, rfl, restMem⟩
  · rintro (⟨plain, mem⟩ | ⟨rfl, d, rest, feed, rfl, mem⟩)
    · exact .inr ⟨[c], mem_item_iff.2 (.inl ⟨c, plain, rfl⟩), text, mem, rfl⟩
    · exact .inr ⟨['\\', d], mem_item_iff.2 (.inr ⟨d, feed, rfl⟩), rest, mem, rfl⟩

theorem quote_notMem_items : '"' :: text ∉ item∗ := by
  intro mem
  rcases mem_items_cons_iff.1 mem with ⟨⟨quote, _⟩, _⟩ | ⟨backslash, _⟩
  · exact quote rfl
  · exact absurd backslash (by decide)

theorem backslash_mem_items_iff :
    '\\' :: text ∈ item∗ ↔ ∃ d rest, d ≠ '\n' ∧ text = d :: rest ∧ rest ∈ item∗ := by
  rw [mem_items_cons_iff]
  constructor
  · rintro (⟨⟨_, plain⟩, _⟩ | ⟨_, pair⟩)
    · exact absurd rfl plain
    · exact pair
  · exact fun pair => .inr ⟨rfl, pair⟩

theorem plain_mem_items_iff (quote : c ≠ '"') (plain : c ≠ '\\') :
    c :: text ∈ item∗ ↔ text ∈ item∗ := by
  rw [mem_items_cons_iff]
  constructor
  · rintro (⟨_, mem⟩ | ⟨backslash, _⟩)
    · exact mem
    · exact absurd backslash plain
  · exact fun mem => .inl ⟨⟨quote, plain⟩, mem⟩

/-- Items that do not begin with a backslash and another character begin with one of their own. -/
theorem plain_of_mem_items (mem : c :: text ∈ item∗)
    (single : ∀ d rest, c = '\\' → text = d :: rest → False) :
    (c ≠ '"' ∧ c ≠ '\\') ∧ text ∈ item∗ := by
  rcases mem_items_cons_iff.1 mem with plain | ⟨rfl, d, rest, _, rfl, _⟩
  · exact plain
  · exact (single d rest rfl rfl).elim

theorem append_mem_items (h : part ∈ item∗) (h' : other ∈ item∗) : part ++ other ∈ item∗ := by
  rw [← kstar_mul_kstar item]
  exact Language.append_mem_mul h h'

theorem mem_opened_iff : text ∈ opened ↔ ∃ body ∈ item∗, '"' :: body = text := by
  rw [opened, Language.mem_mul]
  constructor
  · rintro ⟨_, rfl, body, mem, rfl⟩
    exact ⟨body, mem, rfl⟩
  · rintro ⟨body, mem, rfl⟩
    exact ⟨['"'], mem_word_iff.2 rfl, body, mem, rfl⟩

/-- A string is its items between two quotation marks. -/
theorem mem_string_iff : text ∈ string ↔ ∃ body ∈ item∗, '"' :: (body ++ ['"']) = text := by
  rw [string, Language.mem_mul]
  constructor
  · rintro ⟨_, opened, _, rfl, rfl⟩
    obtain ⟨body, mem, rfl⟩ := mem_opened_iff.1 opened
    exact ⟨body, mem, rfl⟩
  · rintro ⟨body, mem, rfl⟩
    exact ⟨_, mem_opened_iff.2 ⟨body, mem, rfl⟩, ['"'], mem_word_iff.2 rfl, rfl⟩

theorem mem_any_iff :
    text ∈ any ↔ text ∈ keyword ∨ text ∈ integer ∨ text ∈ float ∨ text ∈ string := by
  simp only [any, Language.mem_add, or_assoc]

/-! ## Longest matches -/

/-- The longest beginning of a text that is in a language. -/
structure Longest (language : Language Char) (text part : List Char) : Prop where
  mem : part ∈ language
  begins : part <+: text
  longest : ∀ other ∈ language, other <+: text → other.length ≤ part.length

/-- No beginning of the text is in the language. -/
def Unmatched (language : Language Char) (text : List Char) : Prop :=
  ∀ part ∈ language, ¬ part <+: text

variable {language : Language Char}

theorem Longest.unique (h : Longest language text part) (h' : Longest language text other) :
    part = other := by
  have le := h'.longest part h.mem h.begins
  have ge := h.longest other h'.mem h'.begins
  have shorter : part <+: other := List.prefix_of_prefix_length_le h.begins h'.begins le
  exact shorter.eq_of_length (Nat.le_antisymm le ge)

end BoxedValues.Pattern
