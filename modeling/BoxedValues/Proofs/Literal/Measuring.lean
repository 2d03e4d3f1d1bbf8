import BoxedValues.Proofs.Literal.Lexing

/-!
# Scanning functions measure longest matches

`Token.Measures` says that a length is that of the longest beginning of a text in a language, or
zero if there is none.

* `measures_digits`, `measures_exponent` and `measures_fraction`: the parts of a number are as long
  as they can be, whatever follows them;
* `measures_items`: so are the items of a string.
-/

set_option autoImplicit false

open scoped Computability

namespace BoxedValues

open Pattern

/-! ## The longest digits, exponents and fractions -/

namespace Digits

variable {rest : List Char}

/-- A text does not go on with a digit where its first digits end. -/
theorem endBefore_dropWhile (text : List Char) : EndBefore (text.dropWhile Double.isDigit) := by
  intro c mem
  have ends := List.head?_dropWhile_not Double.isDigit text
  rw [Option.mem_def.1 mem] at ends
  exact ends

/-- The digits with all that follow in the text. -/
def extend (digits : Digits) (rest : List Char) : Digits where
  text := digits.text ++ rest.takeWhile Double.isDigit
  nonempty := List.append_ne_nil_of_left_ne_nil digits.nonempty _
  isDigit c mem := (List.mem_append.1 mem).elim (digits.isDigit c)
    fun mem => List.all_eq_true.1 List.all_takeWhile c mem

theorem extend_append (digits : Digits) (rest : List Char) :
    (digits.extend rest).text ++ rest.dropWhile Double.isDigit = digits.text ++ rest := by
  rw [extend, List.append_assoc, List.takeWhile_append_dropWhile]

theorem length_le_extend (digits : Digits) (rest : List Char) :
    digits.text.length ≤ (digits.extend rest).text.length := by
  rw [extend, List.length_append]
  omega

end Digits

namespace Token

variable {text part rest : List Char}

/-- A length is that of the longest beginning in a language, or zero if there is none. -/
structure Measures (language : Language Char) (text : List Char) (length : Nat) : Prop where
  le : length ≤ text.length
  mem : length ≠ 0 → text.take length ∈ language
  longest : ∀ part ∈ language, part <+: text → part.length ≤ length

namespace Measures

variable {language : Language Char} {length : Nat}

theorem zero (none : ∀ part ∈ language, part <+: text → part = []) : Measures language text 0 where
  le := Nat.zero_le _
  mem nonzero := absurd rfl nonzero
  longest part mem begins := by
    rw [none part mem begins, List.length_nil]

theorem take_mem (h : Measures language text length) (nil : [] ∈ language) :
    text.take length ∈ language := by
  by_cases nonzero : length = 0
  · rw [nonzero, List.take_zero]
    exact nil
  · exact h.mem nonzero

end Measures

theorem exists_digits (found : digitsLength text ≠ 0) :
    ∃ (digits : Digits) (rest : List Char), text = digits.text ++ rest ∧ Digits.EndBefore rest ∧
      digits.text.length = digitsLength text :=
  ⟨⟨text.takeWhile Double.isDigit, mt List.length_eq_zero_iff.2 found,
    fun c mem => List.all_eq_true.1 List.all_takeWhile c mem⟩, text.dropWhile Double.isDigit,
    List.takeWhile_append_dropWhile.symm, Digits.endBefore_dropWhile text, rfl⟩

theorem measures_digits (text : List Char) : Measures digits text (digitsLength text) where
  le := (List.takeWhile_prefix Double.isDigit).length_le
  mem nonzero := by
    obtain ⟨digits, rest, rfl, _, length⟩ := exists_digits nonzero
    rw [← length, List.take_left]
    exact mem_digits_iff.2 ⟨digits, rfl⟩
  longest := by
    rintro _ mem ⟨rest, rfl⟩
    obtain ⟨digits, rfl⟩ := mem_digits_iff.1 mem
    rw [← digits.extend_append, digitsLength_append _ (Digits.endBefore_dropWhile rest)]
    exact digits.length_le_extend rest

/-- An exponent takes all the digits that follow. -/
theorem le_exponentLength (exponent : ExponentText) (rest : List Char) :
    exponent.text.length ≤ exponentLength (exponent.text ++ rest) := by
  obtain ⟨capital, sign, digits⟩ := exponent
  have whole : (⟨capital, sign, digits⟩ : ExponentText).text ++ rest =
      (⟨capital, sign, digits.extend rest⟩ : ExponentText).text ++
        rest.dropWhile Double.isDigit := by
    simp only [ExponentText.text, ExponentText.letter, ExponentText.signText, List.cons_append,
      List.append_assoc, Digits.extend_append]
  rw [whole, exponentLength_text _ (Digits.endBefore_dropWhile rest)]
  have le := digits.length_le_extend rest
  simp only [ExponentText.text, ExponentText.signText, List.length_cons, List.length_append]
  omega

/-- What an exponent consists of behind its letter. -/
theorem exponentLength_cons (c : Char) (rest : List Char) : ∃ sign,
    sign ≤ rest.length ∧ rest.take sign ∈ optional (oneOf fun c => c = '+' ∨ c = '-') ∧
      exponentLength (c :: rest) =
        if (c = 'e' ∨ c = 'E') ∧ digitsLength (rest.drop sign) ≠ 0
          then 1 + sign + digitsLength (rest.drop sign) else 0 := by
  by_cases signed : ∃ d more, (d = '+' ∨ d = '-') ∧ rest = d :: more
  · obtain ⟨d, more, isSign, rfl⟩ := signed
    refine ⟨1, Nat.le_add_left _ _, mem_optional_iff.2 (.inr ⟨d, isSign, rfl⟩), ?_⟩
    rcases isSign with rfl | rfl <;> rfl
  · refine ⟨0, Nat.zero_le _, mem_optional_iff.2 (.inl rfl), ?_⟩
    rw [exponentLength]
    · exact fun more same => signed ⟨'+', more, .inl rfl, same⟩
    · exact fun more same => signed ⟨'-', more, .inr rfl, same⟩

theorem measures_exponent (text : List Char) : Measures exponent text (exponentLength text) := by
  have longest (part) (mem : part ∈ exponent) (begins : part <+: text) :
      part.length ≤ exponentLength text := by
    obtain ⟨rest, rfl⟩ := begins
    obtain ⟨exponent, rfl⟩ := mem_exponent_iff.1 mem
    exact le_exponentLength exponent rest
  cases text with
  | nil => exact ⟨Nat.le_refl _, fun nonzero => absurd rfl nonzero, longest⟩
  | cons c rest =>
    obtain ⟨sign, signLe, signMem, same⟩ := exponentLength_cons c rest
    have digits := measures_digits (rest.drop sign)
    have digitsLe := digits.le
    rw [List.length_drop] at digitsLe
    by_cases found : (c = 'e' ∨ c = 'E') ∧ digitsLength (rest.drop sign) ≠ 0
    · rw [if_pos found] at same
      refine ⟨?_, fun _ => ?_, longest⟩
      · rw [same, List.length_cons]
        omega
      · rw [same, Nat.add_assoc, Nat.add_comm 1, List.take_succ_cons, List.take_add, exponent,
          mul_assoc]
        exact Language.append_mem_mul (mem_oneOf_iff.2 ⟨c, found.1, rfl⟩)
          (Language.append_mem_mul signMem (digits.mem found.2))
    · rw [if_neg found] at same
      exact ⟨by rw [same]; exact Nat.zero_le _, fun nonzero => absurd same nonzero, longest⟩

/-- Digits and an exponent behind a point are a fraction. -/
theorem fractionLength_point (text : List Char) : fractionLength ('.' :: text) =
    if digitsLength text = 0 then 0
      else 1 + digitsLength text + exponentLength (text.drop (digitsLength text)) := rfl

theorem le_fractionLength (own : Digits) (last : Option ExponentText) (rest : List Char) :
    ('.' :: (own.text ++ last.elim [] ExponentText.text)).length ≤
      fractionLength ('.' :: (own.text ++ last.elim [] ExponentText.text) ++ rest) := by
  have positive := List.length_pos_iff.2 own.nonempty
  cases last with
  | none =>
    have digits := (measures_digits (own.text ++ rest)).longest own.text
      (mem_digits_iff.2 ⟨own, rfl⟩) (List.prefix_append _ _)
    rw [Option.elim_none, List.append_nil, List.cons_append, fractionLength_point,
      if_neg (by omega), List.length_cons]
    omega
  | some exponent =>
    have digits := digitsLength_append own (exponent.endBefore_text rest)
    have further := le_exponentLength exponent rest
    rw [Option.elim_some, List.cons_append, List.append_assoc, fractionLength_point, digits,
      if_neg (by omega), List.drop_left, List.length_cons, List.length_append]
    omega

theorem measures_fraction (text : List Char) : Measures fraction text (fractionLength text) := by
  have longest (part) (mem : part ∈ fraction) (begins : part <+: text) :
      part.length ≤ fractionLength text := by
    obtain ⟨rest, rfl⟩ := begins
    obtain ⟨own, last, rfl⟩ := mem_fraction_iff.1 mem
    exact le_fractionLength own last rest
  by_cases point : ∃ rest, text = '.' :: rest
  · obtain ⟨rest, rfl⟩ := point
    have digits := measures_digits rest
    have exponent := measures_exponent (rest.drop (digitsLength rest))
    have digitsLe := digits.le
    have exponentLe := exponent.le
    rw [List.length_drop] at exponentLe
    rw [fractionLength_point] at longest ⊢
    refine ⟨?_, ?_, longest⟩
    · rw [List.length_cons]
      split <;> omega
    · intro nonzero
      have found : digitsLength rest ≠ 0 := fun none => nonzero (if_pos none)
      rw [if_neg found, Nat.add_assoc, Nat.add_comm 1, List.take_succ_cons, List.take_add, fraction,
        mul_assoc]
      refine Language.append_mem_mul (a := ['.']) rfl
        (Language.append_mem_mul (digits.mem found) (mem_optional_iff.2 ?_))
      rw [or_iff_not_imp_left]
      exact fun some => exponent.mem fun none => some (by rw [none, List.take_zero])
  · have none : fractionLength text = 0 := by
      unfold fractionLength
      split
      · exact absurd ⟨_, rfl⟩ point
      · rfl
    exact ⟨by rw [none]; exact Nat.zero_le _, fun nonzero => absurd none nonzero, longest⟩

/-! ## The longest items -/

/-- An item and the longest items behind it, where the text can begin with no other item. -/
theorem Measures.item_append (first : List Char) {length : Nat} (mem : first ∈ item)
    (behind : Measures item∗ rest length)
    (only : ∀ part ∈ item∗, part <+: first ++ rest →
      part = [] ∨ ∃ more ∈ item∗, more <+: rest ∧ part = first ++ more) :
    Measures item∗ (first ++ rest) (first.length + length) where
  le := by
    rw [List.length_append]
    exact Nat.add_le_add_left behind.le _
  mem _ := by
    rw [List.take_length_add_append, ← Language.one_add_self_mul_kstar_eq_kstar, Language.mem_add]
    exact .inr (Language.append_mem_mul mem (behind.take_mem nil_mem_items))
  longest part partMem begins := by
    rcases only part partMem begins with rfl | ⟨more, moreMem, moreBegins, rfl⟩
    · exact Nat.zero_le _
    · rw [List.length_append]
      exact Nat.add_le_add_left (behind.longest more moreMem moreBegins) _

theorem measures_items (text : List Char) : Measures item∗ text (itemsLength text) := by
  fun_induction itemsLength text with
  | case1 => exact .zero fun part _ begins => List.prefix_nil.1 begins
  | case2 =>
    refine .zero ?_
    rintro (_ | ⟨first, part⟩) mem begins
    · rfl
    · obtain ⟨rfl, behind⟩ := List.cons_prefix_cons.1 begins
      obtain ⟨d, more, _, rfl, _⟩ := backslash_mem_items_iff.1 mem
      cases List.prefix_nil.1 behind
  | case3 rest =>
    refine .zero ?_
    rintro (_ | ⟨first, part⟩) mem begins
    · rfl
    · obtain ⟨rfl, behind⟩ := List.cons_prefix_cons.1 begins
      obtain ⟨d, more, feed, rfl, _⟩ := backslash_mem_items_iff.1 mem
      exact absurd (List.cons_prefix_cons.1 behind).1 feed
  | case4 c rest feed ih =>
    refine Measures.item_append ['\\', c] (mem_item_iff.2 (.inr ⟨c, feed, rfl⟩)) ih ?_
    rintro (_ | ⟨first, part⟩) mem begins
    · exact .inl rfl
    · obtain ⟨rfl, behind⟩ := List.cons_prefix_cons.1 begins
      obtain ⟨d, more, _, rfl, moreMem⟩ := backslash_mem_items_iff.1 mem
      obtain ⟨rfl, moreBegins⟩ := List.cons_prefix_cons.1 behind
      exact .inr ⟨more, moreMem, moreBegins, rfl⟩
  | case5 rest =>
    refine .zero ?_
    rintro (_ | ⟨first, part⟩) mem begins
    · rfl
    · obtain ⟨rfl, behind⟩ := List.cons_prefix_cons.1 begins
      exact absurd mem quote_notMem_items
  | case6 c rest single pair quote ih =>
    have plain : c ≠ '\\' := by
      rintro rfl
      cases rest with
      | nil => exact single rfl rfl
      | cons d more => exact pair d more rfl rfl
    refine Measures.item_append [c] (mem_item_iff.2 (.inl ⟨c, ⟨quote, plain⟩, rfl⟩)) ih ?_
    rintro (_ | ⟨first, part⟩) mem begins
    · exact .inl rfl
    · obtain ⟨rfl, behind⟩ := List.cons_prefix_cons.1 begins
      exact .inr ⟨part, (plain_mem_items_iff quote plain).1 mem, behind, rfl⟩

end Token

end BoxedValues
