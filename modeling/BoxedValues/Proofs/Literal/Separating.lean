import BoxedValues.Proofs.Literal.Tiling

/-!
# Texts with blanks between them

Blanks end every token that is no error, so a text can be lexed in parts that have blanks between
them. Only strings have blanks inside, and what follows a closed string does not change it. An error
may go on behind a blank, as a string that is not closed does.

* `Token.Munches.before_blank`: a token that is no error stays the first token of a text when a blank
  and anything else is put behind the text (the step);
* `Lexeme.Lexes.before_blank`: so do all tokens of a text without errors (the run);
* `Lexeme.scan_separated`: **the lexemes of two such texts are those of the one and then those of the
  other**, and words with blanks between them are lexed as these words.
-/

set_option autoImplicit false

open scoped Computability

namespace BoxedValues

/-! ## Patterns without blanks -/

namespace Pattern

/-- No match has a blank in it. -/
def Blankless (language : Language Char) : Prop :=
  ∀ part ∈ language, ∀ c ∈ part, Lexeme.isBlank c = false

variable {first second : Language Char}

theorem Blankless.add (h : Blankless first) (h' : Blankless second) :
    Blankless (first + second) := by
  intro part mem
  exact (Language.mem_add _ _ _).1 mem |>.elim (h part) (h' part)

theorem Blankless.mul (h : Blankless first) (h' : Blankless second) :
    Blankless (first * second) := by
  rintro _ ⟨front, frontMem, back, backMem, rfl⟩ c mem
  exact (List.mem_append.1 mem).elim (h front frontMem c) (h' back backMem c)

theorem Blankless.kstar (h : Blankless first) : Blankless first∗ := by
  rintro _ ⟨parts, rfl, all⟩ c mem
  obtain ⟨part, partMem, cMem⟩ := List.mem_flatten.1 mem
  exact h part (all part partMem) c cMem

theorem Blankless.optional (h : Blankless first) : Blankless (optional first) := by
  intro part mem c cMem
  rcases mem_optional_iff.1 mem with rfl | mem
  · cases cMem
  · exact h part mem c cMem

theorem blankless_word {spelling : List Char} (h : ∀ c ∈ spelling, Lexeme.isBlank c = false) :
    Blankless (word spelling) := by
  intro part mem
  rwa [mem_word_iff.1 mem]

theorem blankless_oneOf {admits : Char → Prop} (h : ∀ c, admits c → Lexeme.isBlank c = false) :
    Blankless (oneOf admits) := by
  rintro _ ⟨c, admitted, rfl⟩ d mem
  rw [List.mem_singleton.1 mem]
  exact h c admitted

theorem blankless_digit : Blankless digit := by
  refine blankless_oneOf fun c inside => ?_
  cases blank : Lexeme.isBlank c with
  | false => rfl
  | true =>
    simp only [Lexeme.isBlank, Bool.or_eq_true, beq_iff_eq] at blank
    rcases blank with ((rfl | rfl) | rfl) | rfl <;> exact absurd inside (by decide)

theorem blankless_digits : Blankless digits := blankless_digit.mul blankless_digit.kstar

theorem blankless_integer : Blankless integer :=
  (blankless_word (List.forall_mem_singleton.2 rfl)).optional.mul blankless_digits

theorem blankless_exponent : Blankless exponent := by
  have letter : Blankless (oneOf fun c => c = 'e' ∨ c = 'E') :=
    blankless_oneOf (by rintro c (rfl | rfl) <;> rfl)
  have sign : Blankless (oneOf fun c => c = '+' ∨ c = '-') :=
    blankless_oneOf (by rintro c (rfl | rfl) <;> rfl)
  exact (letter.mul sign.optional).mul blankless_digits

theorem blankless_float : Blankless float := by
  have point : Blankless (word ['.']) := blankless_word (List.forall_mem_singleton.2 rfl)
  exact blankless_integer.mul ((point.mul blankless_digits).mul blankless_exponent.optional)

theorem blankless_keyword : Blankless keyword := by
  intro part mem
  obtain ⟨token, mem⟩ := mem_keyword_iff.1 mem
  have plain : ∀ entry ∈ Token.fixed, entry.1.any Lexeme.isBlank = false := by decide
  exact fun c inside => Bool.eq_false_iff.2 (List.any_eq_false.1 (plain _ mem) c inside)

/-- A match with a blank in it is a string. -/
theorem mem_string_of_blank {part : List Char} {c : Char} (mem : part ∈ any) (cMem : c ∈ part)
    (blank : Lexeme.isBlank c = true) : part ∈ string := by
  have plain : Blankless (keyword + integer + float) :=
    (blankless_keyword.add blankless_integer).add blankless_float
  rcases (Language.mem_add _ _ _).1 mem with other | string
  · rw [plain part other c cMem] at blank
    cases blank
  · exact string

end Pattern

/-! ## A token and a blank behind its text -/

namespace Token

open Pattern

variable {text part rest : List Char} {c : Char} {token : Token}

/-- What begins with a quotation mark matches no pattern but that of strings. -/
theorem mem_string_of_quote (mem : part ∈ any) (begins : part <+: '"' :: rest) :
    part ∈ Pattern.string := by
  obtain ⟨noKeyword, noInteger⟩ := unmatched_quote rest
  rcases mem_any_iff.1 mem with mem | mem | mem | mem
  · exact absurd begins (noKeyword part mem)
  · exact absurd begins (noInteger part mem)
  · exact absurd begins (unmatched_float noInteger part mem)
  · exact mem

/-- All strings with which a text begins have one length. -/
theorem length_eq_of_begins_string {other : List Char} (mem : part ∈ Pattern.string)
    (otherMem : other ∈ any) (begins : part <+: text) (otherBegins : other <+: text) :
    other.length = part.length := by
  obtain ⟨body, _, rfl⟩ := mem_string_iff.1 mem
  obtain ⟨rest, rfl⟩ := begins
  have string : other ∈ Pattern.string := mem_string_of_quote otherMem otherBegins
  obtain ⟨_, _, length⟩ := exists_of_begins_string mem (List.prefix_append _ rest)
  obtain ⟨_, _, otherLength⟩ := exists_of_begins_string string otherBegins
  rw [length, otherLength]

/-- **A token that is no error stays what it is when a blank comes behind its text.** -/
theorem Munches.before_blank (h : Munches text part token) (sound : token ≠ .error)
    (blank : Lexeme.isBlank c = Bool.true) (rest : List Char) :
    Munches (text ++ c :: rest) part token := by
  cases h with
  | stray | unclosed => exact absurd rfl sound
  | matched longest denotes =>
    have begins : part <+: text ++ c :: rest := longest.begins.trans (List.prefix_append _ _)
    refine .matched ⟨longest.mem, begins, fun other mem otherBegins => ?_⟩ denotes
    -- Another match ends in the text, or it has the blank in it.
    rcases List.prefix_or_prefix_of_prefix otherBegins (List.prefix_append text (c :: rest)) with
      inside | ⟨more, rfl⟩
    · exact longest.longest other mem inside
    · cases more with
      | nil => exact longest.longest _ mem (by simp)
      | cons d more =>
        have same : d = c := by
          have behind := (List.prefix_append_right_inj text).1 otherBegins
          exact (List.cons_prefix_cons.1 behind).1
        have inside : c ∈ text ++ d :: more := by simp [same]
        have string := mem_string_of_blank mem inside blank
        exact (length_eq_of_begins_string string longest.mem otherBegins begins).ge

end Token

/-! ## All tokens of a text -/

namespace Lexeme

open Token (Denotes)

/-- One or more blanks. -/
structure Gap where
  text : List Char
  nonempty : text ≠ []
  blank : ∀ c ∈ text, isBlank c = true

/-- The lexeme so many octets further on. -/
def shift (size : Nat) (lexeme : Lexeme) : Lexeme := { lexeme with start := lexeme.start + size }

variable {start : Nat} {text rest blanks : List Char} {c : Char} {lexemes more : List Lexeme}

/-- The lexemes of a text without errors, and those behind a blank. -/
theorem Lexes.before_blank (h : Lexes start text lexemes)
    (sound : ∀ lexeme ∈ lexemes, lexeme.token ≠ .error) (blank : isBlank c = true)
    (behind : Lexes (start + textSize text) (c :: rest) more) :
    Lexes start (text ++ c :: rest) (lexemes ++ more) := by
  induction h with
  | done => simpa [textSize] using behind
  | blank first _ ih =>
    refine .blank first (ih sound ?_)
    rwa [Nat.add_assoc, ← textSize_cons]
  | @token start text part after token lexemes plain munches same _ ih =>
    obtain ⟨d, first, plain⟩ := plain
    have own : token ≠ .error := sound _ (.head _)
    refine .token ⟨d, ?_, plain⟩ (munches.before_blank own blank rest) ?_ (ih ?_ ?_)
    · simp [List.head?_append, Option.mem_def.1 first]
    · rw [same, List.append_assoc]
    · exact fun lexeme mem => sound lexeme (.tail _ mem)
    · rwa [Nat.add_assoc, ← textSize_append, ← same]

theorem scanFrom_blanks (blank : ∀ c ∈ blanks, isBlank c = true) :
    scanFrom start (blanks ++ rest) = scanFrom (start + textSize blanks) rest := by
  induction blanks generalizing start with
  | nil => simp [textSize]
  | cons c blanks ih =>
    rw [List.cons_append, scanFrom, if_pos (blank c (.head blanks)), textSize_cons,
      ih fun c mem => blank c (.tail _ mem), Nat.add_assoc]

/-- The places of lexemes count from where the text begins. -/
theorem scanFrom_add (start size : Nat) (text : List Char) :
    scanFrom (start + size) text = (scanFrom start text).map (shift size) := by
  fun_induction scanFrom start text with
  | case1 start => rw [scanFrom, List.map_nil]
  | case2 start c rest blank ih => rw [scanFrom, if_pos blank, Nat.add_right_comm, ih]
  | case3 start c rest blank token further head own ih =>
    rw [scanFrom, if_neg blank, head, List.map_cons, ← ih, Nat.add_right_comm]
    rfl

/-- A text without errors, blanks and another text. -/
theorem scan_append (front back : List Char) (gap : Gap)
    (sound : ∀ lexeme ∈ scan front, lexeme.token ≠ .error) :
    scan (front ++ gap.text ++ back) =
      scan front ++ (scan back).map (shift (textSize (front ++ gap.text))) := by
  obtain ⟨blanks, nonempty, blank⟩ := gap
  obtain ⟨c, blanks, rfl⟩ := List.exists_cons_of_ne_nil nonempty
  have behind : Lexes (0 + textSize front) (c :: (blanks ++ back))
      ((scan back).map (shift (textSize (front ++ c :: blanks)))) := by
    rw [lexes_iff, scan, ← scanFrom_add, ← List.cons_append, scanFrom_blanks blank, Nat.add_assoc,
      ← textSize_append]
  have whole := (lexes_scanFrom 0 front).before_blank sound (blank c (.head blanks)) behind
  rw [List.append_assoc]
  exact (eq_scanFrom_of_lexes whole).symm

/-- An error in the first part may end behind the blank: a quotation mark that is no string alone. -/
example : (scan ['"']).map Lexeme.token = [.error] ∧
    (scan ['"', ' ', '"']).map Lexeme.token = [.string [' ']] := by decide +kernel

/-! ## Words one after another -/

/-- A spelling and the token that it stands for, which is no error. -/
structure Word where
  spelling : List Char
  token : Token
  denotes : Denotes spelling token
  sound : token ≠ .error

/-- The text consists of the spellings with blanks between any two. -/
inductive Spaced : List Word → List Char → Prop where
  | none : Spaced [] []
  | last (word : Word) : Spaced [word] word.spelling
  | next (word : Word) (gap : Gap) {words : List Word} {text : List Char} : Spaced words text →
      Spaced (word :: words) (word.spelling ++ gap.text ++ text)

/-- Every token that is found in a text and is no error is a word. -/
theorem exists_word {lexeme : Lexeme} (mem : lexeme ∈ scan text) (sound : lexeme.token ≠ .error) :
    ∃ word : Word, word.spelling = lexeme.text ∧ word.token = lexeme.token := by
  obtain ⟨token, start, spelling⟩ := lexeme
  obtain ⟨_, _, _, _, munches⟩ := munches_of_mem_scanFrom mem
  cases munches with
  | matched _ denotes => exact ⟨⟨spelling, token, denotes, sound⟩, rfl, rfl⟩
  | stray | unclosed => exact absurd rfl sound

/-- A spelling alone is lexed as its token. -/
theorem scan_spelling (word : Word) : scan word.spelling = [⟨word.token, 0, word.spelling⟩] := by
  obtain ⟨c, more, same, plain, head⟩ := word.denotes.leads
  rw [List.append_nil] at head
  rw [same, scan, scanFrom, if_neg (by simp [plain]), head]
  simp [scanFrom]

theorem map_scan_of_spaced {words : List Word} (h : Spaced words text) :
    (scan text).map (fun lexeme => (lexeme.text, lexeme.token)) =
      words.map fun word => (word.spelling, word.token) := by
  induction h with
  | none => simp [scan, scanFrom]
  | last word => simp [scan_spelling]
  | next word gap _ ih =>
    have sound : ∀ lexeme ∈ scan word.spelling, lexeme.token ≠ .error := by
      simp [scan_spelling, word.sound]
    rw [scan_append _ _ gap sound, scan_spelling, List.map_append, List.map_map]
    exact congrArg ((word.spelling, word.token) :: ·) ih

/-- **A text can be lexed in parts that have blanks between them.** If the first part has no error, its
lexemes are followed by those of the second part, each further on by all that stands before it. So
words with blanks between them are lexed as these words; and whatever is lexed without an error is a
word. -/
theorem scan_separated :
    (∀ front back (gap : Gap), (∀ lexeme ∈ scan front, lexeme.token ≠ .error) →
      scan (front ++ gap.text ++ back) =
        scan front ++ (scan back).map (shift (textSize (front ++ gap.text)))) ∧
    (∀ words text, Spaced words text →
      (scan text).map (fun lexeme => (lexeme.text, lexeme.token)) =
        words.map fun word => (word.spelling, word.token)) ∧
    ∀ text, ∀ lexeme ∈ scan text, lexeme.token ≠ .error →
      ∃ word : Word, word.spelling = lexeme.text ∧ word.token = lexeme.token :=
  ⟨scan_append, fun _ _ => map_scan_of_spaced, fun _ _ => exists_word⟩

/-- A number and a string with a blank inside come before a string that is not closed, and are written
apart as words. -/
theorem scan_separated_quoted :
    let front := "-7\"a b\"".toList
    let gap : Gap := ⟨[' ', '\n'], by decide, by simp [isBlank]⟩
    (∀ lexeme ∈ scan front, lexeme.token ≠ .error) ∧
    scan (front ++ gap.text ++ "1e\"".toList) =
      scan front ++ [⟨.int 1, 9, ['1']⟩, ⟨.error, 10, ['e']⟩, ⟨.error, 11, ['"']⟩] ∧
    (scan "-7 \n\"a b\"".toList).map (fun lexeme => (lexeme.text, lexeme.token)) =
      [(['-', '7'], .int (-7)), ("\"a b\"".toList, .string ['a', ' ', 'b'])] := by
  intro front gap
  have sound : ∀ lexeme ∈ scan front, lexeme.token ≠ .error := by decide +kernel
  have back : scan "1e\"".toList = [⟨.int 1, 0, ['1']⟩, ⟨.error, 1, ['e']⟩, ⟨.error, 2, ['"']⟩] := by
    decide +kernel
  let number : Word := ⟨['-', '7'], .int (-7),
    .int (Pattern.mem_integer_iff.2 ⟨true, .ofNat 7, rfl⟩) (by decide), by decide⟩
  let string : Word := ⟨"\"a b\"".toList, .string ['a', ' ', 'b'],
    .string (.raw (by decide) (by decide) (.raw (by decide) (by decide)
      (.raw (by decide) (by decide) .nil))), by decide⟩
  refine ⟨sound, ?_, scan_separated.2.1 [number, string] _ (.next number gap (.last string))⟩
  rw [scan_separated.1 front _ gap sound, back]
  rfl

end Lexeme

end BoxedValues
