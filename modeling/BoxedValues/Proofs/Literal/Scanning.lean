import BoxedValues.Literal.Lexeme

/-!
# Lexemes in their text

What the lexemes of a text have to do with its characters.

* `Lexeme.Covers` says which part of a text lies between two places, counted in octets, and there is
  only one (`Covers.unique`);
* `covers_of_mem_scan`: a lexeme carries the part of the text that it covers.
-/

set_option autoImplicit false

namespace BoxedValues.Lexeme

/-! ## Places in a text -/

theorem textSize_append (first second : List Char) :
    textSize (first ++ second) = textSize first + textSize second := by
  induction first with
  | nil => simp [textSize]
  | cons c rest ih =>
    simp only [textSize, List.cons_append, List.foldr_cons] at ih ⊢
    omega

theorem textSize_cons (c : Char) (text : List Char) :
    textSize (c :: text) = c.utf8Size + textSize text := rfl

/-- Every character has an octet. -/
theorem eq_nil_of_textSize_eq_zero {text : List Char} (h : textSize text = 0) : text = [] := by
  cases text with
  | nil => rfl
  | cons c rest =>
    have := c.utf8Size_pos
    rw [textSize_cons] at h
    omega

/-- A text has one beginning of each size at most. -/
theorem eq_of_textSize_eq {first second rest others : List Char}
    (same : first ++ rest = second ++ others) (size : textSize first = textSize second) :
    first = second := by
  rcases List.append_eq_append_iff.1 same with ⟨more, rfl, _⟩ | ⟨more, rfl, _⟩
  · rw [textSize_append] at size
    have nothing : more = [] := eq_nil_of_textSize_eq_zero (by omega)
    rw [nothing, List.append_nil]
  · rw [textSize_append] at size
    have nothing : more = [] := eq_nil_of_textSize_eq_zero (by omega)
    rw [nothing, List.append_nil]

/-- The text has `part` from the octet `start` on and up to the octet `stop`. -/
def Covers (text part : List Char) (start stop : Nat) : Prop :=
  ∃ before after, text = before ++ part ++ after ∧ textSize before = start ∧
    textSize (before ++ part) = stop

variable {text part other : List Char} {start stop : Nat}

theorem Covers.unique (h : Covers text part start stop) (h' : Covers text other start stop) :
    part = other := by
  obtain ⟨before, after, rfl, size, size'⟩ := h
  obtain ⟨before', after', same, rfl, rfl⟩ := h'
  have fronts : before ++ part = before' ++ other := eq_of_textSize_eq same size'
  have befores : before = before' := eq_of_textSize_eq fronts size
  rw [befores] at fronts
  exact List.append_cancel_left fronts

/-! ## The lexemes of a text -/

theorem covers_of_mem_scanFrom {lexeme : Lexeme} (mem : lexeme ∈ scanFrom start text) :
    start ≤ lexeme.start ∧ Covers text lexeme.text (lexeme.start - start) (lexeme.stop - start) := by
  fun_induction scanFrom start text with
  | case1 start => cases mem
  | case2 start c rest blank ih =>
    obtain ⟨le, before, after, same, size, size'⟩ := ih mem
    refine ⟨by omega, c :: before, after, by rw [same]; rfl, ?_, ?_⟩
    · rw [textSize_cons, size]
      omega
    · rw [List.cons_append, textSize_cons, size']
      have : lexeme.start ≤ lexeme.stop := Nat.le_add_right _ _
      omega
  | case3 start c rest blank token further head own ih =>
    have whole : c :: rest = own ++ rest.drop further := by
      simp only [own, List.cons_append, List.take_append_drop]
    rcases List.mem_cons.1 mem with rfl | later
    · refine ⟨Nat.le_refl _, [], rest.drop further, whole, ?_, ?_⟩
      · simp [textSize]
      · simp [stop]
    · obtain ⟨le, before, after, same, size, size'⟩ := ih later
      refine ⟨by omega, own ++ before, after, ?_, ?_, ?_⟩
      · rw [whole, same]
        simp only [List.append_assoc]
      · rw [textSize_append, size]
        omega
      · rw [List.append_assoc, textSize_append, size']
        have : lexeme.start ≤ lexeme.stop := Nat.le_add_right _ _
        omega

/-- A lexeme carries the part of the text that it covers. -/
theorem covers_of_mem_scan {lexeme : Lexeme} (mem : lexeme ∈ scan text) :
    Covers text lexeme.text lexeme.start lexeme.stop :=
  (covers_of_mem_scanFrom mem).2

end BoxedValues.Lexeme
