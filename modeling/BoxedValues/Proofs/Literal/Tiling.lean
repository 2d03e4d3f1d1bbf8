import Mathlib.Data.List.Pairwise
import BoxedValues.Proofs.Literal.Munching

/-!
# The lexemes of a text and its gaps

`Lexeme.Lexes` goes through a text from the left: a blank is skipped, and anywhere else the first
token is what `Token.Munches` says. `Lexeme.Tiles` says that lexemes have the characters of a text
between them, but for blanks.

* `lexes_iff`: the rules lead to the lexemes that are scanned and to no others;
* `exists_or_isBlank`: a character is in a lexeme or is a blank, by induction on the scan;
* `lexemes_tile`: the rules always come to an end, and what they lead to tiles the text.
-/

set_option autoImplicit false

namespace BoxedValues

namespace Lexeme

/-! ## Going through a text -/

/-- What a text that begins after some octets is cut into: blanks are skipped, and a token begins
with every other character that no token has yet. -/
inductive Lexes : Nat → List Char → List Lexeme → Prop where
  | done {start : Nat} : Lexes start [] []
  | blank {start : Nat} {c : Char} {rest : List Char} {lexemes : List Lexeme} :
      isBlank c = true → Lexes (start + c.utf8Size) rest lexemes → Lexes start (c :: rest) lexemes
  | token {start : Nat} {text part rest : List Char} {token : Token} {lexemes : List Lexeme} :
      (∃ c ∈ text.head?, isBlank c = false) → Token.Munches text part token →
      text = part ++ rest → Lexes (start + textSize part) rest lexemes →
      Lexes start text (⟨token, start, part⟩ :: lexemes)

variable {start : Nat} {text : List Char} {lexeme : Lexeme} {lexemes : List Lexeme}

theorem lexes_scanFrom (start : Nat) (text : List Char) :
    Lexes start text (scanFrom start text) := by
  fun_induction scanFrom start text with
  | case1 => exact .done
  | case2 start c rest blank ih => exact .blank blank ih
  | case3 start c rest blank token further head own ih =>
    have munches := Token.munches_atHead c rest
    rw [head] at munches
    refine .token ⟨c, rfl, Bool.eq_false_iff.2 blank⟩ munches ?_ ih
    rw [List.cons_append, List.take_append_drop]

theorem eq_scanFrom_of_lexes (h : Lexes start text lexemes) : lexemes = scanFrom start text := by
  induction h with
  | done => rw [scanFrom]
  | blank blank _ ih => rw [scanFrom, if_pos blank, ih]
  | @token start text part rest token lexemes plain munches same _ ih =>
    obtain ⟨c, first, plain⟩ := plain
    cases text with
    | nil => cases first
    | cons d more =>
      cases first
      obtain ⟨own, found⟩ := munches.unique (Token.munches_atHead c more)
      have behind : more.drop (Token.atHead c more).2 = rest := by
        have whole : c :: more = c :: more.take (Token.atHead c more).2 ++
            more.drop (Token.atHead c more).2 := by
          rw [List.cons_append, List.take_append_drop]
        rw [← own, same] at whole
        exact (List.append_cancel_left whole).symm
      rw [scanFrom, if_neg (by simp [plain])]
      simp only [behind, ← own, ← found, ih]

/-- The rules lead to what is scanned and to nothing else. -/
theorem lexes_iff : Lexes start text lexemes ↔ lexemes = scanFrom start text := by
  refine ⟨eq_scanFrom_of_lexes, ?_⟩
  rintro rfl
  exact lexes_scanFrom start text

/-! ## Lexemes side by side -/

/-- The character behind the first characters of a text belongs to the lexeme. -/
def Has (lexeme : Lexeme) (before : List Char) (c : Char) : Prop :=
  lexeme.start ≤ textSize before ∧ textSize (before ++ [c]) ≤ lexeme.stop

/-- Lexemes have the characters of a text between them, but for blanks. -/
structure Tiles (text : List Char) (lexemes : List Lexeme) : Prop where
  nonempty : ∀ lexeme ∈ lexemes, lexeme.start < lexeme.stop
  /-- Both ends of a lexeme are ends of characters, and its text is what stands between them. -/
  covers : ∀ lexeme ∈ lexemes, ∀ part, Covers text part lexeme.start lexeme.stop ↔
    part = lexeme.text
  increasing : lexemes.Pairwise fun first second => first.stop ≤ second.start
  /-- A character belongs to one lexeme, or it is a blank in a gap. -/
  complete : ∀ before c after, text = before ++ c :: after →
    (∃! lexeme, lexeme ∈ lexemes ∧ lexeme.Has before c) ∨
      isBlank c = true ∧ ∀ lexeme ∈ lexemes, ¬lexeme.Has before c

theorem start_lt_stop_of_mem (mem : lexeme ∈ scanFrom start text) :
    lexeme.start < lexeme.stop := by
  have positive : 0 < textSize lexeme.text := by
    fun_induction scanFrom start text with
    | case1 => cases mem
    | case2 start c rest blank ih => exact ih mem
    | case3 start c rest blank token further head own ih =>
      rcases List.mem_cons.1 mem with rfl | later
      · have := c.utf8Size_pos
        simp only [own, textSize_cons]
        omega
      · exact ih later
  unfold stop
  omega

theorem pairwise_scanFrom (start : Nat) (text : List Char) :
    (scanFrom start text).Pairwise fun first second => first.stop ≤ second.start := by
  fun_induction scanFrom start text with
  | case1 => exact .nil
  | case2 start c rest blank ih => exact ih
  | case3 start c rest blank token further head own ih =>
    exact .cons (fun later mem => (covers_of_mem_scanFrom mem).1) ih

/-- Two lexemes with a common character are one. -/
theorem eq_of_has {other : Lexeme} {before : List Char} {c : Char}
    (increasing : lexemes.Pairwise fun first second => first.stop ≤ second.start)
    (mem : lexeme ∈ lexemes) (mem' : other ∈ lexemes) (has : lexeme.Has before c)
    (has' : other.Has before c) : lexeme = other := by
  by_contra different
  have apart : lexeme.stop ≤ other.start ∨ other.stop ≤ lexeme.start := by
    have symm : Std.Symm fun first second : Lexeme =>
        first.stop ≤ second.start ∨ second.stop ≤ first.start := ⟨fun _ _ => Or.symm⟩
    have either : lexemes.Pairwise fun first second =>
        first.stop ≤ second.start ∨ second.stop ≤ first.start := increasing.imp .inl
    exact either.forall mem mem' different
  obtain ⟨begins, ends⟩ := has
  obtain ⟨begins', ends'⟩ := has'
  have := c.utf8Size_pos
  rw [textSize_append, textSize_cons] at ends ends'
  omega

/-- The character belongs to the lexeme in a text that begins after `start` octets. -/
def HasFrom (lexeme : Lexeme) (start : Nat) (before : List Char) (c : Char) : Prop :=
  lexeme.start ≤ start + textSize before ∧ start + textSize (before ++ [c]) ≤ lexeme.stop

theorem hasFrom_zero {before : List Char} {c : Char} :
    lexeme.HasFrom 0 before c ↔ lexeme.Has before c := by
  rw [HasFrom, Has, Nat.zero_add, Nat.zero_add]

/-- Places in the rest of a text are those in the whole text. -/
theorem HasFrom.behind (front : List Char) {before : List Char} {c : Char}
    (h : lexeme.HasFrom (start + textSize front) before c) :
    lexeme.HasFrom start (front ++ before) c := by
  rw [HasFrom, Nat.add_assoc, Nat.add_assoc, ← textSize_append, ← textSize_append] at h
  rwa [HasFrom, List.append_assoc]

/-- A character is in a lexeme or is a blank. -/
theorem exists_or_isBlank (start : Nat) (text : List Char) :
    ∀ before c after, text = before ++ c :: after →
      (∃ lexeme ∈ scanFrom start text, lexeme.HasFrom start before c) ∨ isBlank c = true := by
  fun_induction scanFrom start text with
  | case1 start =>
    intro before c after same
    cases before <;> cases same
  | case2 start d rest blank ih =>
    rintro (_ | ⟨first, before⟩) c after same
    · obtain ⟨rfl, rfl⟩ := List.cons.inj same
      exact .inr blank
    · obtain ⟨rfl, behind⟩ := List.cons.inj same
      refine (ih before c after behind).imp_left ?_
      rintro ⟨lexeme, mem, has⟩
      exact ⟨lexeme, mem, HasFrom.behind [d] has⟩
  | case3 start d rest blank token further head own ih =>
    intro before c after same
    have whole : d :: rest = own ++ rest.drop further := by
      simp only [own, List.cons_append, List.take_append_drop]
    have behind (more) (same : rest.drop further = more ++ c :: after) :
        (∃ lexeme ∈ ⟨token, start, own⟩ :: scanFrom (start + textSize own) (rest.drop further),
          lexeme.HasFrom start (own ++ more) c) ∨ isBlank c = true := by
      refine (ih more c after same).imp_left ?_
      rintro ⟨lexeme, mem, has⟩
      exact ⟨lexeme, .tail _ mem, has.behind own⟩
    -- The character is behind this token or in it.
    rw [whole] at same
    rcases List.append_eq_append_iff.1 same with ⟨more, rfl, later⟩ | ⟨more, inside, later⟩
    · exact behind more later
    · cases more with
      | nil =>
        have front : own ++ [] = before := by rw [List.append_nil, inside, List.append_nil]
        rw [← front]
        exact behind [] later.symm
      | cons first more =>
        obtain ⟨rfl, _⟩ := List.cons.inj later
        refine .inl ⟨_, .head _, Nat.le_add_right _ _, ?_⟩
        have size : textSize own = textSize (before ++ [c]) + textSize more := by
          rw [inside, ← textSize_append, List.append_assoc, List.singleton_append]
        show _ ≤ start + textSize own
        omega

/-- **The lexemes of a text are found in one way, and no character but a blank is lost or read
twice.** -/
theorem lexemes_tile (text : List Char) :
    (∀ lexemes, Lexes 0 text lexemes ↔ lexemes = scan text) ∧ Tiles text (scan text) := by
  refine ⟨fun lexemes => lexes_iff, ?_⟩
  have increasing := pairwise_scanFrom 0 text
  refine ⟨fun lexeme => start_lt_stop_of_mem, fun lexeme mem part => ?_, increasing, ?_⟩
  · have covers := covers_of_mem_scan mem
    refine ⟨fun other => other.unique covers, ?_⟩
    rintro rfl
    exact covers
  · intro before c after same
    by_cases inside : ∃ lexeme ∈ scan text, lexeme.Has before c
    · obtain ⟨lexeme, mem, has⟩ := inside
      exact .inl ⟨lexeme, ⟨mem, has⟩, fun other found =>
        eq_of_has increasing found.1 mem found.2 has⟩
    · simp only [not_exists, not_and] at inside
      refine .inr ⟨?_, inside⟩
      rcases exists_or_isBlank 0 text before c after same with ⟨lexeme, mem, has⟩ | blank
      · exact absurd (hasFrom_zero.1 has) (inside lexeme mem)
      · exact blank

end Lexeme

end BoxedValues
