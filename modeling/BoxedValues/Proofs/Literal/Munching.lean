import BoxedValues.Proofs.Literal.Measuring

/-!
# Tokens are longest matches

`Token.Munches` says which part of a text is its first token and what it stands for, in terms of the
patterns alone: the longest beginning that matches one of them, or else one character, or at a
quotation mark the quotation mark with the complete items behind it.

* `Denotes` says what a match stands for, and that is one token (`existsUnique_denotes`);
* `munches_atHead`: the function takes what is munched, and nothing else is (`Munches.unique`);
* `Lexeme.scan_munches`: so does every lexeme of a text.
-/

set_option autoImplicit false

open scoped Computability

namespace BoxedValues

open Pattern

namespace Token

variable {text part rest : List Char}

/-! ## What a match stands for -/

/-- The number that decimal digits spell, behind a minus or not. -/
def decimalValue : List Char → Int
  | '-' :: digits => -(Nat.ofDigitChars 10 digits 0 : Int)
  | digits => Nat.ofDigitChars 10 digits 0

/-- What a text that matches a pattern stands for. -/
inductive Denotes : List Char → Token → Prop where
  | keyword {spelling : List Char} {token : Token} : (spelling, token) ∈ fixed →
      Denotes spelling token
  /-- An integer that fits carries its exact value. -/
  | int {text : List Char} {value : Int64} : text ∈ integer → value.toInt = decimalValue text →
      Denotes text (.int value)
  | overflow {text : List Char} : text ∈ integer →
      ¬(Int64.minValue.toInt ≤ decimalValue text ∧ decimalValue text ≤ Int64.maxValue.toInt) →
        Denotes text .error
  | float {text : List Char} {value : Double} : text ∈ Pattern.float →
      Double.ofText? text = some value → Denotes text (.float value)
  | string {chars body : List Char} : Body chars body →
      Denotes ('"' :: (body ++ ['"'])) (.string chars)
  /-- A backslash in front of a letter that stands for nothing spoils the whole string. -/
  | badEscape {before after : List Char} {letter : Char} : before ∈ item∗ → after ∈ item∗ →
      letter ≠ '\n' → (∀ c, (letter, c) ∉ escapes) →
      Denotes ('"' :: (before ++ '\\' :: letter :: after ++ ['"'])) .error

theorem integer?_signed_eq (negative : Bool) (whole : Digits) :
    Numeral.integer? 10 (Numeral.signed negative whole.text) =
      some (decimalValue (Numeral.signed negative whole.text)) := by
  rw [Numeral.integer?_signed, Numeral.digitsValue_eq_ofDigitChars]
  cases negative with
  | true => rfl
  | false =>
    rw [Numeral.signed, if_neg Bool.false_ne_true, if_neg Bool.false_ne_true, decimalValue]
    exact fun digits => by
      have first := whole.ne_cons_of_not_isDigit [] (c := '-') rfl digits
      rwa [List.append_nil] at first

theorem toInt64?_eq_some_iff (mem : text ∈ integer) {value : Int64} :
    Numeral.toInt64? 10 text = some value ↔ value.toInt = decimalValue text := by
  obtain ⟨negative, whole, rfl⟩ := mem_integer_iff.1 mem
  rw [Numeral.toInt64?, integer?_signed_eq, Option.bind_some, Numeral.int64?_eq_some_iff, eq_comm]

theorem toInt64?_eq_none_iff (mem : text ∈ integer) : Numeral.toInt64? 10 text = .none ↔
    ¬(Int64.minValue.toInt ≤ decimalValue text ∧ decimalValue text ≤ Int64.maxValue.toInt) := by
  obtain ⟨negative, whole, rfl⟩ := mem_integer_iff.1 mem
  rw [Numeral.toInt64?, integer?_signed_eq, Option.bind_some, Numeral.int64?, ite_eq_right_iff]
  constructor
  · intro outside fits
    cases outside fits
  · exact fun outside fits => absurd fits outside

/-- An integer is read as its value, or as an error if that does not fit. -/
theorem denotes_ofInteger (mem : text ∈ integer) : Denotes text (ofInteger text) := by
  unfold ofInteger
  cases read : Numeral.toInt64? 10 text with
  | none => exact .overflow mem ((toInt64?_eq_none_iff mem).1 read)
  | some value => exact .int mem ((toInt64?_eq_some_iff mem).1 read)

theorem denotes_ofFraction (mem : text ∈ Pattern.float) : Denotes text (ofFraction text) := by
  obtain ⟨float, rfl⟩ := mem_float_iff.1 mem
  unfold ofFraction
  rw [Double.ofText?_text]
  exact .float mem (Double.ofText?_text float)

theorem escaped?_eq_some_iff {letter c : Char} :
    escaped? letter = some c ↔ (letter, c) ∈ escapes := by
  refine ⟨fun found => ?_, fun mem => (escaped?_of_mem mem).1⟩
  unfold escaped? at found
  split_ifs at found <;> cases found <;> subst_vars <;> decide

/-- Items have a text, or one of them is a backslash in front of another letter. -/
theorem unescape?_items {body : List Char} (mem : body ∈ item∗) :
    (∃ chars, unescape? body = some chars ∧ Body chars body) ∨
      unescape? body = .none ∧ ∃ before letter after, body = before ++ '\\' :: letter :: after ∧
        before ∈ item∗ ∧ after ∈ item∗ ∧ letter ≠ '\n' ∧ ∀ c, (letter, c) ∉ escapes := by
  fun_induction unescape? body with
  | case1 => exact .inl ⟨[], rfl, .nil⟩
  | case2 =>
    obtain ⟨d, others, _, same, _⟩ := backslash_mem_items_iff.1 mem
    cases same
  | case3 c others ih =>
    obtain ⟨d, _, feed, same, othersMem⟩ := backslash_mem_items_iff.1 mem
    obtain ⟨rfl, rfl⟩ := List.cons.inj same
    cases known : escaped? c with
    | none =>
      refine .inr ⟨rfl, [], c, others, rfl, nil_mem_items, othersMem, feed, fun e found => ?_⟩
      rw [escaped?_eq_some_iff.2 found] at known
      cases known
    | some e =>
      rcases ih othersMem with ⟨chars, resolved, body⟩ | ⟨fails, before, letter, after, rfl, parts⟩
      · exact .inl ⟨e :: chars, by rw [Option.bind_some, resolved]; rfl,
          .escape (escaped?_eq_some_iff.1 known) body⟩
      · refine .inr ⟨by rw [Option.bind_some, fails]; rfl, '\\' :: c :: before, letter, after, rfl,
          backslash_mem_items_iff.2 ⟨c, before, feed, rfl, parts.1⟩, parts.2⟩
  | case4 c others single pair ih =>
    obtain ⟨⟨quote, plain⟩, othersMem⟩ := plain_of_mem_items mem pair
    rcases ih othersMem with ⟨chars, resolved, body⟩ | ⟨fails, before, letter, after, rfl, parts⟩
    · exact .inl ⟨c :: chars, by rw [resolved]; rfl, .raw quote plain body⟩
    · exact .inr ⟨by rw [fails]; rfl, c :: before, letter, after, rfl,
        (plain_mem_items_iff quote plain).2 parts.1, parts.2⟩

/-- The items of a string are read as its text, or as an error if one is no escape. -/
theorem denotes_ofBody {body : List Char} (mem : body ∈ item∗) :
    Denotes ('"' :: (body ++ ['"'])) (ofBody body) := by
  unfold ofBody
  rcases unescape?_items mem with
    ⟨chars, resolved, body⟩ | ⟨fails, before, letter, after, rfl, beforeMem, afterMem, feed, unknown⟩
  · rw [resolved]
    exact .string body
  · rw [fails]
    exact .badEscape beforeMem afterMem feed unknown

theorem unescape?_badEscape {before after : List Char} {letter : Char} (mem : before ∈ item∗)
    (unknown : ∀ c, (letter, c) ∉ escapes) :
    unescape? (before ++ '\\' :: letter :: after) = .none := by
  have spoilt : unescape? ('\\' :: letter :: after) = .none := by
    rw [unescape?, Option.eq_none_iff_forall_ne_some.2 fun c found =>
      unknown c (escaped?_eq_some_iff.1 found)]
    rfl
  fun_induction unescape? before with
  | case1 => exact spoilt
  | case2 =>
    obtain ⟨d, others, _, same, _⟩ := backslash_mem_items_iff.1 mem
    cases same
  | case3 c others ih =>
    obtain ⟨d, _, feed, same, othersMem⟩ := backslash_mem_items_iff.1 mem
    obtain ⟨rfl, rfl⟩ := List.cons.inj same
    rw [List.cons_append, List.cons_append, unescape?, ih othersMem]
    cases escaped? c <;> rfl
  | case4 c others single pair ih =>
    obtain ⟨⟨quote, plain⟩, othersMem⟩ := plain_of_mem_items mem pair
    rw [List.cons_append, unescape?]
    · rw [ih othersMem]
      rfl
    · exact fun backslash => absurd backslash plain
    · exact fun _ _ backslash => absurd backslash plain

/-- What a text stands for is the token that it begins with when nothing follows. -/
theorem Denotes.leads {token : Token} (h : Denotes text token) : token.Leads text [] := by
  cases h with
  | keyword mem => exact leads_fixed mem []
  | int mem same =>
    obtain ⟨negative, whole, rfl⟩ := mem_integer_iff.1 mem
    have leads := leads_ofInteger negative whole delimited_nil
    rwa [ofInteger, (toInt64?_eq_some_iff mem).2 same] at leads
  | overflow mem outside =>
    obtain ⟨negative, whole, rfl⟩ := mem_integer_iff.1 mem
    have leads := leads_ofInteger negative whole delimited_nil
    rwa [ofInteger, (toInt64?_eq_none_iff mem).2 outside] at leads
  | float mem read =>
    obtain ⟨number, rfl⟩ := mem_float_iff.1 mem
    rw [Double.ofText?_text] at read
    cases read
    exact leads_float number delimited_nil
  | string body => exact leads_string body []
  | badEscape beforeMem afterMem feed unknown =>
    have bodyMem := append_mem_items beforeMem
      (backslash_mem_items_iff.2 ⟨_, _, feed, rfl, afterMem⟩)
    have leads := leads_items bodyMem []
    rwa [ofBody, unescape?_badEscape beforeMem unknown] at leads

/-- **A match stands for one token at most.** -/
theorem Denotes.unique {token other : Token} (h : Denotes text token) (h' : Denotes text other) :
    token = other := by
  obtain ⟨c, more, rfl, _, head⟩ := h.leads
  obtain ⟨_, _, same, _, head'⟩ := h'.leads
  obtain ⟨rfl, rfl⟩ := List.cons.inj same
  rw [head] at head'
  exact congrArg Prod.fst head'

/-- Every text that matches a pattern stands for exactly one token. -/
theorem existsUnique_denotes (mem : text ∈ any) : ∃! token, Denotes text token := by
  have exists_denotes : ∃ token, Denotes text token := by
    rcases mem_any_iff.1 mem with mem | mem | mem | mem
    · obtain ⟨token, mem⟩ := mem_keyword_iff.1 mem
      exact ⟨token, .keyword mem⟩
    · exact ⟨_, denotes_ofInteger mem⟩
    · exact ⟨_, denotes_ofFraction mem⟩
    · obtain ⟨body, bodyMem, rfl⟩ := mem_string_iff.1 mem
      exact ⟨_, denotes_ofBody bodyMem⟩
  obtain ⟨token, denotes⟩ := exists_denotes
  exact ⟨token, denotes, fun other denotes' => denotes'.unique denotes⟩

/-! ## The first token of a text -/

/-- The part of a text that is its first token, and what it stands for. -/
inductive Munches (text : List Char) : List Char → Token → Prop where
  | matched {part : List Char} {token : Token} : Longest any text part → Denotes part token →
      Munches text part token
  /-- A character with which no pattern begins is an error alone. -/
  | stray {c : Char} {rest : List Char} : Unmatched any text → text = c :: rest → c ≠ '"' →
      Munches text [c] .error
  /-- A string that is not closed is an error as far as its items can be told. -/
  | unclosed {part : List Char} : Unmatched any text → Longest opened text part →
      Munches text part .error

/-- Every token has a character. -/
theorem Munches.ne_nil {token : Token} (h : Munches text part token) : part ≠ [] := by
  cases h with
  | matched _ denotes =>
    obtain ⟨c, more, rfl, _⟩ := denotes.leads
    exact List.cons_ne_nil c more
  | stray => exact List.cons_ne_nil _ _
  | unclosed _ longest =>
    obtain ⟨body, _, rfl⟩ := mem_opened_iff.1 longest.mem
    exact List.cons_ne_nil _ body

theorem Munches.unique {other : List Char} {token token' : Token} (h : Munches text part token)
    (h' : Munches text other token') : part = other ∧ token = token' := by
  cases h with
  | matched longest denotes =>
    cases h' with
    | matched longest' denotes' =>
      obtain rfl := longest.unique longest'
      exact ⟨rfl, denotes.unique denotes'⟩
    | stray unmatched => exact absurd longest.begins (unmatched _ longest.mem)
    | unclosed unmatched => exact absurd longest.begins (unmatched _ longest.mem)
  | stray unmatched same quote =>
    cases h' with
    | matched longest => exact absurd longest.begins (unmatched _ longest.mem)
    | stray _ same' =>
      rw [same] at same'
      exact ⟨by rw [(List.cons.inj same').1], rfl⟩
    | unclosed _ longest =>
      obtain ⟨body, _, rfl⟩ := mem_opened_iff.1 longest.mem
      have begins := longest.begins
      rw [same] at begins
      exact absurd (List.cons_prefix_cons.1 begins).1.symm quote
  | unclosed unmatched longest =>
    cases h' with
    | matched longest' => exact absurd longest'.begins (unmatched _ longest'.mem)
    | stray _ same quote =>
      obtain ⟨body, _, rfl⟩ := mem_opened_iff.1 longest.mem
      have begins := longest.begins
      rw [same] at begins
      exact absurd (List.cons_prefix_cons.1 begins).1.symm quote
    | unclosed _ longest' => exact ⟨longest.unique longest', rfl⟩

/-! ## Texts that begin with a number -/

/-- Words and punctuation begin neither with a number nor with a quotation mark. -/
theorem exists_cons_of_mem_fixed {spelling : List Char} {token : Token}
    (mem : (spelling, token) ∈ fixed) : ∃ first more, spelling = first :: more ∧ first ≠ '-' ∧
      Double.isDigit first = Bool.false ∧ first ≠ '"' := by
  have first : ∀ entry ∈ fixed, entry.1.head?.any fun c =>
      c ≠ '-' ∧ Double.isDigit c = Bool.false ∧ c ≠ '"' := by decide
  have own := first _ mem
  cases spelling with
  | nil => cases own
  | cons c more => exact ⟨c, more, rfl, by simpa using own⟩

section Number

variable {negative : Bool} {whole : Digits}

theorem signed_inj {other : Bool} {digits : Digits} {after : List Char}
    (same : Numeral.signed negative whole.text ++ rest =
      Numeral.signed other digits.text ++ after) :
    negative = other ∧ whole.text ++ rest = digits.text ++ after := by
  cases negative with
  | true =>
    cases other with
    | true => exact ⟨rfl, (List.cons.inj same).2⟩
    | false => exact absurd same.symm (digits.ne_cons_of_not_isDigit after rfl _)
  | false =>
    cases other with
    | true => exact absurd same (whole.ne_cons_of_not_isDigit rest rfl _)
    | false => exact ⟨rfl, same⟩

theorem length_signed (negative : Bool) (text : List Char) :
    (Numeral.signed negative text).length = negative.toNat + text.length := by
  cases negative with
  | true => rw [Numeral.signed, if_pos rfl, List.length_cons, Bool.toNat_true, Nat.add_comm]
  | false => rw [Numeral.signed, if_neg Bool.false_ne_true, Bool.toNat_false, Nat.zero_add]

/-- No integer goes on where the digits of the first one end. -/
theorem length_le_of_integer (ends : Digits.EndBefore rest) (mem : part ∈ integer)
    (begins : part <+: Numeral.signed negative whole.text ++ rest) :
    part.length ≤ (Numeral.signed negative whole.text).length := by
  obtain ⟨other, digits, rfl⟩ := mem_integer_iff.1 mem
  obtain ⟨after, same⟩ := begins
  obtain ⟨rfl, behind⟩ := signed_inj same
  have le := (measures_digits _).longest _ (mem_digits_iff.2 ⟨digits, rfl⟩) ⟨after, behind⟩
  rw [digitsLength_append whole ends] at le
  rw [length_signed, length_signed]
  omega

/-- A number with a fraction takes the first integer and a fraction behind it. -/
theorem exists_fraction_of_float (ends : Digits.EndBefore rest) (mem : part ∈ Pattern.float)
    (begins : part <+: Numeral.signed negative whole.text ++ rest) :
    ∃ more ∈ fraction, more <+: rest ∧ part = Numeral.signed negative whole.text ++ more := by
  obtain ⟨own, ownMem, more, moreMem, rfl⟩ := Language.mem_mul.1 mem
  obtain ⟨after, same⟩ := begins
  obtain ⟨other, digits, rfl⟩ := mem_integer_iff.1 ownMem
  rw [List.append_assoc] at same
  obtain ⟨rfl, behind⟩ := signed_inj same
  have point : Digits.EndBefore (more ++ after) := by
    obtain ⟨own, last, rfl⟩ := mem_fraction_iff.1 moreMem
    exact Digits.endBefore_cons rfl
  have length := digitsLength_append digits point
  rw [behind, digitsLength_append whole ends] at length
  obtain ⟨front, rfl⟩ := List.append_inj behind length.symm
  exact ⟨more, moreMem, ⟨after, rfl⟩, by rw [front]⟩

theorem not_begins_keyword (mem : part ∈ keyword) :
    ¬part <+: Numeral.signed negative whole.text ++ rest := by
  intro begins
  obtain ⟨token, mem⟩ := mem_keyword_iff.1 mem
  obtain ⟨first, more, rfl, minus, digit, _⟩ := exists_cons_of_mem_fixed mem
  cases negative with
  | true => exact minus (List.cons_prefix_cons.1 begins).1
  | false =>
    obtain ⟨after, same⟩ := begins
    exact whole.ne_cons_of_not_isDigit rest digit _ same.symm

theorem not_begins_string (mem : part ∈ Pattern.string) :
    ¬part <+: Numeral.signed negative whole.text ++ rest := by
  intro begins
  obtain ⟨body, _, rfl⟩ := mem_string_iff.1 mem
  obtain ⟨c, more, same, _, quote⟩ := exists_cons_signed negative whole rest
  rw [same] at begins
  exact quote (List.cons_prefix_cons.1 begins).1.symm

theorem munches_ofInteger (ends : Digits.EndBefore rest) (alone : fractionLength rest = 0) :
    Munches (Numeral.signed negative whole.text ++ rest) (Numeral.signed negative whole.text)
      (ofInteger (Numeral.signed negative whole.text)) := by
  have own : Numeral.signed negative whole.text ∈ integer := mem_integer_iff.2 ⟨_, _, rfl⟩
  refine .matched ⟨mem_any_iff.2 (.inr (.inl own)), List.prefix_append _ _, ?_⟩
    (denotes_ofInteger own)
  intro other mem begins
  rcases mem_any_iff.1 mem with mem | mem | mem | mem
  · exact absurd begins (not_begins_keyword mem)
  · exact length_le_of_integer ends mem begins
  · obtain ⟨more, moreMem, moreBegins, rfl⟩ := exists_fraction_of_float ends mem begins
    have le := (measures_fraction rest).longest more moreMem moreBegins
    rw [List.length_append]
    omega
  · exact absurd begins (not_begins_string mem)

theorem munches_ofFraction (ends : Digits.EndBefore rest) (behind : fractionLength rest ≠ 0) :
    Munches (Numeral.signed negative whole.text ++ rest)
      (Numeral.signed negative whole.text ++ rest.take (fractionLength rest))
      (ofFraction (Numeral.signed negative whole.text ++ rest.take (fractionLength rest))) := by
  have measures := measures_fraction rest
  have own : Numeral.signed negative whole.text ∈ integer := mem_integer_iff.2 ⟨_, _, rfl⟩
  have mem : Numeral.signed negative whole.text ++ rest.take (fractionLength rest) ∈
      Pattern.float := Language.append_mem_mul own (measures.mem behind)
  refine .matched ⟨mem_any_iff.2 (.inr (.inr (.inl mem))), ?_, ?_⟩ (denotes_ofFraction mem)
  · exact (List.prefix_append_right_inj _).2 (List.take_prefix _ _)
  · intro other mem begins
    rw [List.length_append, List.length_take, Nat.min_eq_left measures.le]
    rcases mem_any_iff.1 mem with mem | mem | mem | mem
    · exact absurd begins (not_begins_keyword mem)
    · have le := length_le_of_integer ends mem begins
      omega
    · obtain ⟨more, moreMem, moreBegins, rfl⟩ := exists_fraction_of_float ends mem begins
      have le := measures.longest more moreMem moreBegins
      rw [List.length_append]
      omega
    · exact absurd begins (not_begins_string mem)

end Number

/-- A text begins with no integer, and then with no number, or it goes on behind its first integer
with something other than a digit. -/
theorem numberAt?_eq_none_or (text : List Char) :
    numberAt? text = .none ∧ Unmatched integer text ∨
      ∃ (negative : Bool) (whole : Digits) (rest : List Char),
        text = Numeral.signed negative whole.text ++ rest ∧ Digits.EndBefore rest := by
  by_cases unmatched : Unmatched integer text
  · refine .inl ⟨?_, unmatched⟩
    by_cases minus : ∃ more, text = '-' :: more
    · obtain ⟨more, rfl⟩ := minus
      have none : digitsLength more = 0 := by
        by_contra found
        obtain ⟨digits, rest, rfl, _⟩ := exists_digits found
        exact unmatched _ (mem_integer_iff.2 ⟨Bool.true, digits, rfl⟩) ⟨rest, rfl⟩
      exact if_pos none
    · have none : digitsLength text = 0 := by
        by_contra found
        obtain ⟨digits, rest, rfl, _⟩ := exists_digits found
        exact unmatched _ (mem_integer_iff.2 ⟨Bool.false, digits, rfl⟩) ⟨rest, rfl⟩
      rw [numberAt?]
      · exact if_pos none
      · exact fun more same => minus ⟨more, same⟩
  · refine .inr ?_
    simp only [Unmatched, not_forall, not_not] at unmatched
    obtain ⟨part, mem, after, rfl⟩ := unmatched
    obtain ⟨negative, digits, rfl⟩ := mem_integer_iff.1 mem
    refine ⟨negative, digits.extend after, after.dropWhile Double.isDigit, ?_,
      Digits.endBefore_dropWhile after⟩
    have extended := digits.extend_append after
    cases negative with
    | true => exact congrArg ('-' :: ·) extended.symm
    | false => exact extended.symm

/-- The number that is found at the beginning of a text is its first token. -/
theorem munches_numberAt? (text : List Char) : numberAt? text = .none ∧ Unmatched integer text ∨
    ∃ token length, numberAt? text = some (token, length) ∧
      Munches text (text.take length) token := by
  rcases numberAt?_eq_none_or text with none | ⟨negative, whole, rest, rfl, ends⟩
  · exact .inl none
  · refine .inr ?_
    rw [numberAt?_signed negative whole ends]
    by_cases alone : fractionLength rest = 0
    · refine ⟨_, _, if_pos alone, ?_⟩
      rw [List.take_left]
      exact munches_ofInteger ends alone
    · refine ⟨_, _, if_neg alone, ?_⟩
      rw [List.take_length_add_append]
      exact munches_ofFraction ends alone

/-! ## Texts that begin with something else -/

theorem unmatched_float (unmatched : Unmatched integer text) : Unmatched Pattern.float text := by
  rintro _ mem ⟨after, rfl⟩
  obtain ⟨own, ownMem, more, _, rfl⟩ := Language.mem_mul.1 mem
  exact unmatched own ownMem ⟨more ++ after, (List.append_assoc ..).symm⟩

theorem unmatched_string {c : Char} (quote : c ≠ '"') : Unmatched Pattern.string (c :: rest) := by
  intro part mem begins
  obtain ⟨body, _, rfl⟩ := mem_string_iff.1 mem
  exact quote (List.cons_prefix_cons.1 begins).1.symm

theorem unmatched_any (noKeyword : Unmatched keyword text) (noInteger : Unmatched integer text)
    (noString : Unmatched Pattern.string text) : Unmatched any text := by
  intro part mem
  rcases mem_any_iff.1 mem with mem | mem | mem | mem
  · exact noKeyword part mem
  · exact noInteger part mem
  · exact unmatched_float noInteger part mem
  · exact noString part mem

theorem munches_fixed {spelling : List Char} {token : Token} (mem : (spelling, token) ∈ fixed)
    (rest : List Char) : Munches (spelling ++ rest) spelling token := by
  have apart : ∀ entry ∈ fixed, ∀ other ∈ fixed, entry.1 <+: other.1 → entry.1 = other.1 := by
    decide
  have own := mem_keyword_iff.2 ⟨token, mem⟩
  have integer : Unmatched integer (spelling ++ rest) := by
    rintro _ numberMem ⟨after, same⟩
    obtain ⟨negative, whole, rfl⟩ := mem_integer_iff.1 numberMem
    exact not_begins_keyword own ⟨rest, same.symm⟩
  refine .matched ⟨mem_any_iff.2 (.inl own), List.prefix_append _ _, ?_⟩ (.keyword mem)
  intro other otherMem begins
  rcases mem_any_iff.1 otherMem with otherMem | otherMem | otherMem | otherMem
  · obtain ⟨_, otherMem⟩ := mem_keyword_iff.1 otherMem
    rcases List.prefix_or_prefix_of_prefix begins (List.prefix_append _ _) with shorter | longer
    · exact shorter.length_le
    · exact (congrArg List.length (apart _ mem _ otherMem longer)).ge
  · exact absurd begins (integer other otherMem)
  · exact absurd begins (unmatched_float integer other otherMem)
  · obtain ⟨first, more, rfl, _, _, quote⟩ := exists_cons_of_mem_fixed mem
    exact absurd begins (unmatched_string quote other otherMem)

/-- The word or the punctuation that is found at the beginning of a text is its first token. -/
theorem munches_fixedAt? (text : List Char) : fixedAt? text = .none ∧ Unmatched keyword text ∨
    ∃ token length, fixedAt? text = some (token, length) ∧
      Munches text (text.take length) token := by
  unfold fixedAt?
  cases found : fixed.find? fun entry => entry.1.isPrefixOf text with
  | none =>
    refine .inl ⟨rfl, fun part mem begins => ?_⟩
    obtain ⟨token, mem⟩ := mem_keyword_iff.1 mem
    exact List.find?_eq_none.1 found _ mem (List.isPrefixOf_iff_prefix.2 begins)
  | some entry =>
    have begins := List.find?_some found
    obtain ⟨rest, rfl⟩ := List.isPrefixOf_iff_prefix.1 begins
    refine .inr ⟨_, _, rfl, ?_⟩
    rw [List.take_left]
    exact munches_fixed (List.mem_of_find?_eq_some found) rest

/-! ## Texts that begin with a quotation mark -/

theorem unmatched_quote (rest : List Char) :
    Unmatched keyword ('"' :: rest) ∧ Unmatched integer ('"' :: rest) := by
  constructor
  · intro part mem begins
    obtain ⟨token, mem⟩ := mem_keyword_iff.1 mem
    obtain ⟨first, more, rfl, _, _, quote⟩ := exists_cons_of_mem_fixed mem
    exact quote (List.cons_prefix_cons.1 begins).1
  · rintro _ mem ⟨after, same⟩
    obtain ⟨negative, whole, rfl⟩ := mem_integer_iff.1 mem
    obtain ⟨c, more, first, _, quote⟩ := exists_cons_signed negative whole after
    rw [first] at same
    exact quote (List.cons.inj same).1

/-- A string ends where its items end. -/
theorem exists_of_begins_string (mem : part ∈ Pattern.string) (begins : part <+: '"' :: rest) :
    ∃ after, rest.drop (itemsLength rest) = '"' :: after ∧ part.length = itemsLength rest + 2 := by
  obtain ⟨body, bodyMem, rfl⟩ := mem_string_iff.1 mem
  obtain ⟨after, rfl⟩ := (List.cons_prefix_cons.1 begins).2
  rw [List.append_assoc, List.singleton_append, itemsLength_append bodyMem, List.drop_left]
  exact ⟨after, rfl, by simp⟩

/-- A quotation mark behind the items closes the string. -/
theorem munches_closed {after : List Char} (behind : rest.drop (itemsLength rest) = '"' :: after) :
    Munches ('"' :: rest) ('"' :: rest.take (itemsLength rest + 1))
      (ofBody (rest.take (itemsLength rest))) := by
  have items := (measures_items rest).take_mem nil_mem_items
  obtain ⟨noKeyword, noInteger⟩ := unmatched_quote rest
  have whole : rest.take (itemsLength rest + 1) = rest.take (itemsLength rest) ++ ['"'] := by
    rw [List.take_add, behind, List.take_succ_cons, List.take_zero]
  have begins : '"' :: (rest.take (itemsLength rest) ++ ['"']) <+: '"' :: rest := by
    rw [← whole]
    exact List.cons_prefix_cons.2 ⟨rfl, List.take_prefix _ _⟩
  have own : '"' :: (rest.take (itemsLength rest) ++ ['"']) ∈ Pattern.string :=
    mem_string_iff.2 ⟨_, items, rfl⟩
  rw [whole]
  refine .matched ⟨mem_any_iff.2 (.inr (.inr (.inr own))), begins, ?_⟩ (denotes_ofBody items)
  intro other mem otherBegins
  rcases mem_any_iff.1 mem with mem | mem | mem | mem
  · exact absurd otherBegins (noKeyword other mem)
  · exact absurd otherBegins (noInteger other mem)
  · exact absurd otherBegins (unmatched_float noInteger other mem)
  · obtain ⟨_, _, length⟩ := exists_of_begins_string own begins
    obtain ⟨_, _, otherLength⟩ := exists_of_begins_string mem otherBegins
    omega

/-- Without one the string is an error as far as its items go. -/
theorem munches_unclosed (unclosed : ∀ after, rest.drop (itemsLength rest) ≠ '"' :: after) :
    Munches ('"' :: rest) ('"' :: rest.take (itemsLength rest)) .error := by
  have measures := measures_items rest
  have items := measures.take_mem nil_mem_items
  obtain ⟨noKeyword, noInteger⟩ := unmatched_quote rest
  refine .unclosed (unmatched_any noKeyword noInteger ?_) ⟨mem_opened_iff.2 ⟨_, items, rfl⟩, ?_, ?_⟩
  · intro part mem begins
    obtain ⟨after, behind, _⟩ := exists_of_begins_string mem begins
    exact unclosed after behind
  · exact List.cons_prefix_cons.2 ⟨rfl, List.take_prefix _ _⟩
  · intro other mem begins
    obtain ⟨body, bodyMem, rfl⟩ := mem_opened_iff.1 mem
    have le := measures.longest body bodyMem (List.cons_prefix_cons.1 begins).2
    rw [List.length_cons, List.length_cons, List.length_take, Nat.min_eq_left measures.le]
    omega

theorem munches_stringAfterQuote (rest : List Char) :
    Munches ('"' :: rest) ('"' :: rest.take (stringAfterQuote rest).2) (stringAfterQuote rest).1 := by
  simp only [stringAfterQuote]
  split
  · rename_i after behind
    exact munches_closed behind
  · rename_i unclosed
    exact munches_unclosed unclosed

/-! ## Every text -/

theorem Munches.cons {c : Char} {length : Nat} {token : Token}
    (h : Munches (c :: rest) ((c :: rest).take length) token) :
    Munches (c :: rest) (c :: rest.take (length - 1)) token := by
  cases length with
  | zero => exact absurd rfl h.ne_nil
  | succ length => exact h

/-- **The function takes the first token of a text.** -/
theorem munches_atHead (c : Char) (rest : List Char) :
    Munches (c :: rest) (c :: rest.take (atHead c rest).2) (atHead c rest).1 := by
  unfold atHead
  split
  · rename_i quote
    rw [quote]
    exact munches_stringAfterQuote rest
  · rename_i quote
    rcases munches_numberAt? (c :: rest) with ⟨none, noInteger⟩ | ⟨token, length, found, munches⟩
    · rcases munches_fixedAt? (c :: rest) with ⟨none', noKeyword⟩ | ⟨token, length, found, munches⟩
      · rw [none, none']
        exact .stray (unmatched_any noKeyword noInteger (unmatched_string quote)) rfl quote
      · rw [none, found]
        exact munches.cons
    · rw [found]
      exact munches.cons

end Token

namespace Lexeme

open Token (Munches)

variable {start : Nat} {text : List Char} {lexeme : Lexeme}

theorem munches_of_mem_scanFrom (mem : lexeme ∈ scanFrom start text) :
    ∃ before after, text = before ++ (lexeme.text ++ after) ∧
      start + textSize before = lexeme.start ∧
      Munches (lexeme.text ++ after) lexeme.text lexeme.token := by
  fun_induction scanFrom start text with
  | case1 start => cases mem
  | case2 start c rest blank ih =>
    obtain ⟨before, after, rfl, place, munches⟩ := ih mem
    exact ⟨c :: before, after, rfl, by rw [textSize_cons, ← place, Nat.add_assoc], munches⟩
  | case3 start c rest blank token further head own ih =>
    have whole : c :: rest = own ++ rest.drop further := by
      simp only [own, List.cons_append, List.take_append_drop]
    rcases List.mem_cons.1 mem with rfl | later
    · have munches := Token.munches_atHead c rest
      rw [head, whole] at munches
      exact ⟨[], rest.drop further, whole, rfl, munches⟩
    · obtain ⟨before, after, same, place, munches⟩ := ih later
      refine ⟨own ++ before, after, by rw [whole, same, List.append_assoc], ?_, munches⟩
      rw [textSize_append, ← place, Nat.add_assoc]

/-- **Every token is the longest beginning of the remaining text that matches a pattern, and carries
exactly what that stands for.** What the remaining text begins with is fixed by the patterns alone:
the lexeme has this part and this token, and nothing else is munched there. -/
theorem scan_munches (text : List Char) : ∀ lexeme ∈ scan text, ∃ before after,
    text = before ++ (lexeme.text ++ after) ∧ textSize before = lexeme.start ∧
      ∀ part token, Munches (lexeme.text ++ after) part token ↔
        part = lexeme.text ∧ token = lexeme.token := by
  intro lexeme mem
  obtain ⟨before, after, same, place, munches⟩ := munches_of_mem_scanFrom mem
  rw [Nat.zero_add] at place
  refine ⟨before, after, same, place, fun part token => ⟨fun other => other.unique munches, ?_⟩⟩
  rintro ⟨rfl, rfl⟩
  exact munches

/-- A string with an unknown escape behind another number is one error. -/
theorem scan_munches_badEscape :
    (⟨.error, 2, ['"', '\\', 'q', '"']⟩ : Lexeme) ∈ scan ['7', ',', '"', '\\', 'q', '"', ' '] ∧
      ∃ before after, ['7', ',', '"', '\\', 'q', '"', ' '] =
          before ++ (['"', '\\', 'q', '"'] ++ after) ∧ textSize before = 2 ∧
        ∀ part token, Munches (['"', '\\', 'q', '"'] ++ after) part token ↔
          part = ['"', '\\', 'q', '"'] ∧ token = .error :=
  have mem : (⟨.error, 2, ['"', '\\', 'q', '"']⟩ : Lexeme) ∈
      scan ['7', ',', '"', '\\', 'q', '"', ' '] := by decide +kernel
  ⟨mem, scan_munches _ _ mem⟩

end Lexeme

end BoxedValues
