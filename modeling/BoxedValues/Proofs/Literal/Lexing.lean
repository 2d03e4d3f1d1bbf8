import BoxedValues.Proofs.Literal.Patterns
import BoxedValues.Proofs.Literal.Scanning

/-!
# Tokens by their spelling

Which characters are a token of their own, whatever comes behind them. `Token.Leads` says that a
spelling is lexed as a token if a given text follows.

* words and punctuation may be followed by anything (`leads_fixed`), and so may strings
  (`leads_string`);
* numbers may be followed by what ends them (`leads_int`, `leads_float`).

`Lexeme.tokens` are the tokens of a text without their places; `tokens_of_leads` splits them behind
a spelling.
-/

set_option autoImplicit false

open scoped Computability

namespace BoxedValues

/-! ## The tokens of a text -/

/-- A text that begins with the spelling and goes on with `rest` begins with the token, which covers
the spelling. -/
def Token.Leads (token : Token) (spelling rest : List Char) : Prop :=
  ∃ c more, spelling = c :: more ∧ Lexeme.isBlank c = Bool.false ∧
    Token.atHead c (more ++ rest) = (token, more.length)

namespace Lexeme

/-- The tokens of a text, without their places. -/
def tokens (text : List Char) : List Token := (scan text).map token

variable {c : Char} {text rest blanks spelling : List Char} {token : Token}

/-- The places do not decide about the tokens. -/
theorem map_token_scanFrom (start other : Nat) (text : List Char) :
    (scanFrom start text).map Lexeme.token = (scanFrom other text).map Lexeme.token := by
  fun_induction scanFrom start text generalizing other with
  | case1 => rw [scanFrom]
  | case2 start c rest blank ih => rw [scanFrom, if_pos blank, ih]
  | case3 start c rest blank token further head own ih =>
    rw [scanFrom, if_neg blank]
    simp only [head, List.map_cons]
    rw [ih]

theorem tokens_nil : tokens [] = [] := by
  unfold tokens scan
  rw [scanFrom]
  rfl

theorem tokens_blank (blank : isBlank c = true) : tokens (c :: rest) = tokens rest := by
  unfold tokens scan
  rw [scanFrom, if_pos blank]
  exact map_token_scanFrom _ _ _

theorem tokens_cons (blank : isBlank c = false) : tokens (c :: rest) =
    (Token.atHead c rest).1 :: tokens (rest.drop (Token.atHead c rest).2) := by
  unfold tokens scan
  rw [scanFrom, if_neg (by simp [blank]), List.map_cons]
  rw [map_token_scanFrom _ 0]

/-- Blanks in front of a text make no difference. -/
theorem tokens_blanks (blank : ∀ c ∈ blanks, isBlank c = true) :
    tokens (blanks ++ rest) = tokens rest := by
  induction blanks with
  | nil => rfl
  | cons c blanks ih =>
    rw [List.cons_append, tokens_blank (blank c (.head blanks))]
    exact ih fun c mem => blank c (.tail _ mem)

/-- Behind a spelling the tokens are those of the rest. -/
theorem tokens_of_leads (leads : token.Leads spelling rest) :
    tokens (spelling ++ rest) = token :: tokens rest := by
  obtain ⟨c, more, rfl, blank, head⟩ := leads
  rw [List.cons_append, tokens_cons blank, head, List.drop_left]

end Lexeme

namespace Token

variable {rest spelling : List Char} {token : Token}

/-! ## Words and punctuation -/

/-- A token of one spelling is found wherever that is. -/
theorem leads_fixed (mem : (spelling, token) ∈ fixed) (rest : List Char) :
    token.Leads spelling rest := by
  simp only [fixed, List.mem_cons, Prod.mk.injEq, List.not_mem_nil, or_false] at mem
  rcases mem with ⟨rfl, rfl⟩ | ⟨rfl, rfl⟩ | ⟨rfl, rfl⟩ | ⟨rfl, rfl⟩ | ⟨rfl, rfl⟩ | ⟨rfl, rfl⟩ |
    ⟨rfl, rfl⟩
  all_goals exact ⟨_, _, rfl, rfl, rfl⟩

/-! ## Numbers -/

/-- The text ends here, or goes on with a blank, a comma or a closing bracket. -/
def Delimited (rest : List Char) : Prop :=
  ∀ c ∈ rest.head?, Lexeme.isBlank c = Bool.true ∨ c = ',' ∨ c = ']'

theorem delimited_nil : Delimited [] := nofun

theorem delimited_cons {c : Char} (h : Lexeme.isBlank c = Bool.true ∨ c = ',' ∨ c = ']') :
    Delimited (c :: rest) := by
  rintro other ⟨⟩
  exact h

/-- A delimiter is none of the characters that a number goes on with. -/
theorem Delimited.ends (h : Delimited rest) :
    ∀ c ∈ rest.head?, Double.isDigit c = Bool.false ∧ c ≠ '.' ∧ c ≠ 'e' ∧ c ≠ 'E' := by
  intro c mem
  have delimiter := h c mem
  simp only [Lexeme.isBlank, Bool.or_eq_true, beq_iff_eq] at delimiter
  rcases delimiter with (((rfl | rfl) | rfl) | rfl) | rfl | rfl <;> decide

theorem Delimited.endBefore (h : Delimited rest) : Digits.EndBefore rest :=
  fun c mem => (h.ends c mem).1

theorem digitsLength_append (digits : Digits) (h : Digits.EndBefore rest) :
    digitsLength (digits.text ++ rest) = digits.text.length := by
  rw [digitsLength, digits.takeWhile_append h]

theorem exponentLength_of_delimited (h : Delimited rest) : exponentLength rest = 0 := by
  cases rest with
  | nil => rfl
  | cons c rest =>
    obtain ⟨_, _, small, capital⟩ := h.ends c rfl
    exact if_neg fun letter => letter.1.elim small capital

theorem exponentLength_text (exponent : ExponentText) (h : Digits.EndBefore rest) :
    exponentLength (exponent.text ++ rest) = exponent.text.length := by
  have letter := exponent.letter_eq
  obtain ⟨capital, sign, digits⟩ := exponent
  have length := digitsLength_append digits h
  have nonzero : digits.text.length ≠ 0 := mt List.length_eq_zero_iff.1 digits.nonempty
  match sign with
  | some Bool.false | some Bool.true =>
    simp only [ExponentText.text, ExponentText.signText, List.cons_append, List.nil_append,
      exponentLength, List.drop_one, List.tail_cons, length, letter, nonzero, ne_eq,
      not_false_eq_true, and_self, if_true, List.length_cons]
    omega
  | .none =>
    simp only [ExponentText.text, ExponentText.signText, List.cons_append, List.nil_append]
    rw [exponentLength]
    · rw [List.drop_zero, length, if_pos ⟨letter, nonzero⟩, List.length_cons]
      omega
    · exact digits.ne_cons_of_not_isDigit rest rfl
    · exact digits.ne_cons_of_not_isDigit rest rfl

theorem fractionLength_of_delimited (h : Delimited rest) : fractionLength rest = 0 := by
  unfold fractionLength
  split
  · exact absurd rfl (h.ends '.' rfl).2.1
  · rfl

/-- A point, digits and an exponent are a fraction. -/
theorem fractionLength_text (float : FloatText) (h : Delimited rest) :
    fractionLength ('.' :: (float.fraction.text ++ float.exponentText) ++ rest) =
      ('.' :: (float.fraction.text ++ float.exponentText)).length := by
  have ends := float.endBefore_exponentText h.endBefore
  have exponent : exponentLength (float.exponentText ++ rest) = float.exponentText.length := by
    unfold FloatText.exponentText
    cases float.exponent with
    | none => exact exponentLength_of_delimited h
    | some exponent => exact exponentLength_text exponent h.endBefore
  have positive := List.length_pos_iff.2 float.fraction.nonempty
  rw [List.cons_append, List.append_assoc]
  unfold fractionLength
  simp only [digitsLength_append _ ends, List.drop_left, exponent, List.length_cons,
    List.length_append]
  rw [if_neg (by omega)]
  omega

/-- A number takes its digits and the fraction behind them. -/
theorem numberAt?_signed (negative : Bool) (whole : Digits) (h : Digits.EndBefore rest) :
    numberAt? (Numeral.signed negative whole.text ++ rest) =
      let own := Numeral.signed negative whole.text
      let further := fractionLength rest
      if further = 0 then some (ofInteger own, own.length)
      else some (ofFraction (own ++ rest.take further), own.length + further) := by
  have length := digitsLength_append whole h
  have nonzero : whole.text.length ≠ 0 := mt List.length_eq_zero_iff.1 whole.nonempty
  cases negative with
  | true =>
    have behind : ('-' :: (whole.text ++ rest)).drop (1 + whole.text.length) = rest := by
      rw [Nat.add_comm, List.drop_succ_cons, List.drop_left]
    have own (further : Nat) : ('-' :: (whole.text ++ rest)).take (1 + whole.text.length + further) =
        '-' :: (whole.text ++ rest.take further) := by
      rw [Nat.add_assoc, Nat.add_comm 1, List.take_succ_cons, List.take_length_add_append]
    have whole' := own 0
    rw [Nat.add_zero, List.take_zero, List.append_nil] at whole'
    simp only [Numeral.signed, if_true, numberAt?, List.cons_append, List.drop_one, List.tail_cons,
      length, nonzero, if_false, behind, own, whole', List.length_cons]
    simp only [Nat.add_comm]
  | false =>
    show numberAt? (whole.text ++ rest) = _
    rw [numberAt?]
    · simp only [Numeral.signed, Bool.false_eq_true, if_false, List.drop_zero, Nat.zero_add, length,
        nonzero, List.drop_left, List.take_left, List.take_length_add_append]
    · exact whole.ne_cons_of_not_isDigit rest rfl

/-- Numbers begin neither with a blank nor with a quotation mark. -/
theorem exists_cons_signed (negative : Bool) (whole : Digits) (rest : List Char) :
    ∃ c more, Numeral.signed negative whole.text ++ rest = c :: more ∧
      Lexeme.isBlank c = Bool.false ∧ c ≠ '"' := by
  cases negative with
  | true => exact ⟨'-', _, rfl, rfl, by decide⟩
  | false =>
    obtain ⟨c, others, same, isDigit⟩ := whole.exists_cons
    refine ⟨c, others ++ rest, by rw [Numeral.signed, same]; rfl, ?_, ?_⟩
    · cases blank : Lexeme.isBlank c with
      | false => rfl
      | true =>
        simp only [Lexeme.isBlank, Bool.or_eq_true, beq_iff_eq] at blank
        rcases blank with ((rfl | rfl) | rfl) | rfl <;> exact absurd isDigit (by decide)
    · rintro rfl
      exact absurd isDigit (by decide)

/-- A text that begins with a number begins with its token. -/
theorem leads_of_numberAt? {negative : Bool} {whole : Digits} {more : List Char}
    (found : numberAt? (Numeral.signed negative whole.text ++ more ++ rest) =
      some (token, (Numeral.signed negative whole.text ++ more).length)) :
    token.Leads (Numeral.signed negative whole.text ++ more) rest := by
  obtain ⟨c, others, same, blank, quote⟩ := exists_cons_signed negative whole more
  rw [same] at found ⊢
  refine ⟨c, others, rfl, blank, ?_⟩
  unfold atHead
  rw [if_neg quote, ← List.cons_append, found]
  rfl

theorem leads_ofInteger (negative : Bool) (whole : Digits) (h : Delimited rest) :
    (ofInteger (Numeral.signed negative whole.text)).Leads (Numeral.signed negative whole.text)
      rest := by
  have found := numberAt?_signed negative whole h.endBefore
  simp only [fractionLength_of_delimited h, if_pos] at found
  rw [← List.append_nil (Numeral.signed _ _)] at found ⊢
  exact leads_of_numberAt? (by rwa [List.append_nil] at found ⊢)

theorem leads_int (value : Int64) (h : Delimited rest) :
    (int value).Leads (Numeral.ofInt value.toInt) rest := by
  obtain ⟨negative, n, same⟩ := Numeral.ofInt_eq_signed value.toInt
  have spelled : ofInteger (Numeral.ofInt value.toInt) = int value := by
    rw [ofInteger, Numeral.toInt64?_ofInt]
  have leads := leads_ofInteger negative (.ofNat n) h
  change _ = Numeral.signed negative (Digits.ofNat n).text at same
  rwa [← same, spelled] at leads

theorem leads_float (number : FloatText) (h : Delimited rest) :
    (float number.value).Leads number.text rest := by
  have fraction := fractionLength_text number h
  have point : Digits.EndBefore ('.' :: (number.fraction.text ++ number.exponentText) ++ rest) :=
    Digits.endBefore_cons (by decide)
  have found := numberAt?_signed number.negative number.whole point
  have whole : Numeral.signed number.negative number.whole.text ++
      '.' :: (number.fraction.text ++ number.exponentText) = number.text := by
    unfold FloatText.text FloatText.magnitudeText Numeral.signed
    cases number.negative <;> rfl
  have spelled : ofFraction number.text = float number.value := by
    rw [ofFraction, Double.ofText?_text]
  simp only [fraction, List.take_left, whole, spelled] at found
  rw [if_neg (by rw [List.length_cons]; exact Nat.succ_ne_zero _), ← List.length_append] at found
  rw [← whole]
  refine leads_of_numberAt? ?_
  rw [List.append_assoc]
  exact found

/-! ## Strings -/

/-- The letters that stand for characters behind a backslash. -/
def escapes : List (Char × Char) :=
  [('n', '\n'), ('t', '\t'), ('r', '\r'), ('0', '\x00'), ('\\', '\\'), ('"', '"')]

/-- What may stand between quotation marks for a text: its characters, those with an escape escaped
or not, but quotation marks and backslashes always. -/
inductive Body : List Char → List Char → Prop where
  | nil : Body [] []
  | raw {c : Char} {text body : List Char} : c ≠ '"' → c ≠ '\\' → Body text body →
      Body (c :: text) (c :: body)
  | escape {letter c : Char} {text body : List Char} : (letter, c) ∈ escapes → Body text body →
      Body (c :: text) ('\\' :: letter :: body)

theorem escaped?_of_mem {letter c : Char} (mem : (letter, c) ∈ escapes) :
    escaped? letter = some c ∧ letter ≠ '\n' := by
  simp only [escapes, List.mem_cons, Prod.mk.injEq, List.not_mem_nil, or_false] at mem
  rcases mem with ⟨rfl, rfl⟩ | ⟨rfl, rfl⟩ | ⟨rfl, rfl⟩ | ⟨rfl, rfl⟩ | ⟨rfl, rfl⟩ | ⟨rfl, rfl⟩
  all_goals decide

variable {text body : List Char}

/-- Items end at a quotation mark that is none of them. -/
theorem itemsLength_append (mem : body ∈ Pattern.item∗) (rest : List Char) :
    itemsLength (body ++ '"' :: rest) = body.length := by
  fun_induction unescape? body with
  | case1 => rfl
  | case2 =>
    obtain ⟨d, others, _, same, _⟩ := Pattern.backslash_mem_items_iff.1 mem
    cases same
  | case3 c others ih =>
    obtain ⟨d, _, feed, same, mem⟩ := Pattern.backslash_mem_items_iff.1 mem
    obtain ⟨rfl, rfl⟩ := List.cons.inj same
    rw [List.cons_append, List.cons_append, itemsLength, if_neg feed, ih mem]
    simp only [List.length_cons]
    omega
  | case4 c others single pair ih =>
    obtain ⟨⟨quote, plain⟩, othersMem⟩ := Pattern.plain_of_mem_items mem pair
    rw [List.cons_append, itemsLength]
    · rw [if_neg quote, ih othersMem, List.length_cons, Nat.add_comm]
    · exact fun backslash => absurd backslash plain
    · exact fun _ _ backslash => absurd backslash plain

/-- Quotation marks around items make one token. -/
theorem leads_items (mem : body ∈ Pattern.item∗) (rest : List Char) :
    (ofBody body).Leads ('"' :: (body ++ ['"'])) rest := by
  refine ⟨'"', _, rfl, rfl, ?_⟩
  have items := itemsLength_append mem rest
  unfold atHead stringAfterQuote
  rw [if_pos rfl, List.append_assoc, List.singleton_append]
  simp only [items, List.drop_left, List.take_left, List.length_append, List.length_singleton]

/-- A body is made of items. -/
theorem Body.mem_items (h : Body text body) : body ∈ Pattern.item∗ := by
  induction h with
  | nil => exact Pattern.nil_mem_items
  | raw quote backslash _ ih => exact (Pattern.plain_mem_items_iff quote backslash).2 ih
  | escape mem _ ih =>
    exact Pattern.backslash_mem_items_iff.2 ⟨_, _, (escaped?_of_mem mem).2, rfl, ih⟩

/-- Resolving the escapes of a body gives its text. -/
theorem Body.unescape? (h : Body text body) : unescape? body = some text := by
  induction h with
  | nil => rfl
  | raw quote backslash _ ih =>
    rw [Token.unescape?]
    · rw [ih, Option.map_some]
    · rintro rfl
      exact fun _ => backslash rfl
    · rintro c others rfl
      exact fun _ => backslash rfl
  | escape mem _ ih =>
    rw [Token.unescape?, (escaped?_of_mem mem).1, ih]
    rfl

theorem leads_string (h : Body text body) (rest : List Char) :
    (string text).Leads ('"' :: (body ++ ['"'])) rest := by
  have leads := leads_items h.mem_items rest
  rwa [ofBody, h.unescape?] at leads

end Token

end BoxedValues
