import BoxedValues.Machine.StringLibrary
import BoxedValues.Proofs.Literal.Evaluating
import BoxedValues.Proofs.Literal.Lexing

/-!
# What is written is read

A `Draft` is a value to be written down, with its floats as they are spelled. `Writes` says which
texts are one way of writing it: strings may have escapes, blanks may stand around every value, and
a list may have a comma behind its last item.

* `tokens_of_writes`: a written value is cut into tokens that the grammar derives, by recursion on
  how it is written;
* `readValues_of_writes`: **every text that was written is read as the values that it was written
  for**.
-/

set_option autoImplicit false

namespace BoxedValues

/-- A value to be written down. -/
inductive Draft where
  | none
  | bool (value : Bool)
  | int (value : Int64)
  | float (number : FloatText)
  | string (text : List Char)
  | list (items : List Draft)

namespace Draft

mutual

/-- The value that a draft stands for. -/
def literal : Draft → Literal
  | none => .none
  | bool value => .bool value
  | int value => .int value
  | float number => .float number.value
  | string text => .string (Utf8.encode text)
  | list items => .array (literals items)

/-- The values that drafts stand for, in order. -/
def literals : List Draft → List Literal
  | [] => []
  | draft :: rest => draft.literal :: literals rest

end

/-! ## Writing -/

/-- Nothing but blanks. -/
def Blank (text : List Char) : Prop := ∀ c ∈ text, Lexeme.isBlank c = true

mutual

/-- The text is one way of writing the draft. -/
inductive Writes : Draft → List Char → Prop where
  | none : Writes .none "None".toList
  | false : Writes (.bool false) "false".toList
  | true : Writes (.bool true) "true".toList
  | int (value : Int64) : Writes (.int value) (Numeral.ofInt value.toInt)
  | float (number : FloatText) : Writes (.float number) number.text
  | string {text body : List Char} : Token.Body text body →
      Writes (.string text) ('"' :: (body ++ ['"']))
  | list {items : List Draft} {inner : List Char} : WritesAll items inner →
      Writes (.list items) ('[' :: (inner ++ [']']))

/-- The text is one way of writing the drafts in order, with commas between them. -/
inductive WritesAll : List Draft → List Char → Prop where
  | blank {text : List Char} : Blank text → WritesAll [] text
  | last {draft : Draft} {before text after : List Char} : Blank before → Writes draft text →
      Blank after → WritesAll [draft] (before ++ text ++ after)
  | next {draft : Draft} {drafts : List Draft} {before text after rest : List Char} :
      Blank before → Writes draft text → Blank after → WritesAll drafts rest →
        WritesAll (draft :: drafts) (before ++ text ++ after ++ ',' :: rest)

end

/-! ## Phrases of drafts -/

mutual

/-- The draft as a phrase of the grammar. -/
def phrase : Draft → Phrase
  | none => .none
  | bool value => .bool value
  | int value => .int value
  | float number => .float number.value
  | string text => .string text
  | list items => .list (phrases items)

/-- The drafts as phrases of the grammar. -/
def phrases : List Draft → List Phrase
  | [] => []
  | draft :: rest => draft.phrase :: phrases rest

end

mutual

theorem value?_phrase : (draft : Draft) → draft.phrase.value? = some draft.literal
  | none | bool _ | int _ | float _ | string _ => by
    rw [phrase, literal, Phrase.value?]
  | list items => by
    rw [phrase, literal, Phrase.value?, values?_phrases items]
    rfl

theorem values?_phrases : (drafts : List Draft) →
    Phrase.values? (phrases drafts) = some (literals drafts)
  | [] => rfl
  | draft :: rest => by
    rw [phrases, literals, Phrase.values?_cons, value?_phrase draft, values?_phrases rest]
    rfl

end

/-! ## Tokens of written texts -/

open Token (Delimited)

variable {text rest blanks : List Char} {draft : Draft} {drafts : List Draft}

/-- What may come behind the values of a list: nothing, or its closing bracket. -/
def Closed (rest : List Char) : Prop := rest = [] ∨ ∃ more, rest = ']' :: more

theorem Closed.delimited (h : Closed rest) : Delimited rest := by
  rcases h with rfl | ⟨more, rfl⟩
  · exact Token.delimited_nil
  · exact Token.delimited_cons (.inr (.inr rfl))

/-- A delimiter may have blanks before it. -/
theorem Blank.delimited (h : Blank blanks) (delimited : Delimited rest) :
    Delimited (blanks ++ rest) := by
  cases blanks with
  | nil => exact delimited
  | cons c blanks => exact Token.delimited_cons (.inl (h c (.head blanks)))

/-- A fixed token with one value to itself. -/
theorem tokens_of_fixed {token : Token} (mem : (text, token) ∈ Token.fixed) :
    Lexeme.tokens (text ++ rest) = token :: Lexeme.tokens rest :=
  Lexeme.tokens_of_leads (Token.leads_fixed mem rest)

/-- The tokens of a value between blanks. -/
theorem tokens_between {before after : List Char} {tokens : List Token} (first : Blank before)
    (last : Blank after) (delimited : Delimited rest)
    (own : ∀ rest, Delimited rest → Lexeme.tokens (text ++ rest) = tokens ++ Lexeme.tokens rest) :
    Lexeme.tokens (before ++ text ++ after ++ rest) = tokens ++ Lexeme.tokens rest := by
  rw [List.append_assoc, List.append_assoc, Lexeme.tokens_blanks first,
    own _ (last.delimited delimited), Lexeme.tokens_blanks last]

mutual

/-- A written value is cut into tokens of which the grammar derives it, if a delimiter follows. -/
theorem tokens_of_writes {draft : Draft} {text : List Char} : Writes draft text →
    ∃ tokens, Derives .value [draft.phrase] tokens ∧
      ∀ rest, Delimited rest → Lexeme.tokens (text ++ rest) = tokens ++ Lexeme.tokens rest
  | .none => ⟨[.none], .atom .none, fun _ _ => tokens_of_fixed (by decide)⟩
  | .false => ⟨[.false], .atom .false, fun _ _ => tokens_of_fixed (by decide)⟩
  | .true => ⟨[.true], .atom .true, fun _ _ => tokens_of_fixed (by decide)⟩
  | .int value => ⟨[.int value], .atom (.int value),
      fun _ delimited => Lexeme.tokens_of_leads (Token.leads_int value delimited)⟩
  | .float number => ⟨[.float number.value], .atom (.float number.value),
      fun _ delimited => Lexeme.tokens_of_leads (Token.leads_float number delimited)⟩
  | @Writes.string content _ body => ⟨[.string content], .atom (.string content),
      fun rest _ => Lexeme.tokens_of_leads (Token.leads_string body rest)⟩
  | @Writes.list _ inner written => by
    obtain ⟨tokens, derived, _, own⟩ := tokens_of_writesAll written
    refine ⟨_, .atom (.list derived), fun rest _ => ?_⟩
    have opened : Lexeme.tokens ('[' :: (inner ++ [']']) ++ rest) =
        .openBracket :: Lexeme.tokens (inner ++ ']' :: rest) := by
      rw [List.cons_append, List.append_assoc, List.singleton_append]
      exact tokens_of_fixed (show (['['], .openBracket) ∈ Token.fixed by decide)
    have closed : Lexeme.tokens (']' :: rest) = .closeBracket :: Lexeme.tokens rest :=
      tokens_of_fixed (show ([']'], .closeBracket) ∈ Token.fixed by decide)
    rw [opened, own _ (.inr ⟨rest, rfl⟩), closed]
    simp only [List.cons_append, List.append_assoc, List.nil_append]

/-- Written values are cut into tokens of which the grammar derives them, as a list or as the rest
of a list behind a comma. -/
theorem tokens_of_writesAll {drafts : List Draft} {text : List Char} : WritesAll drafts text →
    ∃ tokens, Derives .values (phrases drafts) tokens ∧
      Derives .rest (phrases drafts) (.comma :: tokens) ∧
        ∀ rest, Closed rest → Lexeme.tokens (text ++ rest) = tokens ++ Lexeme.tokens rest
  | .blank blank => ⟨[], .empty, .comma, fun _ _ => Lexeme.tokens_blanks blank⟩
  | .last before written after => by
    obtain ⟨tokens, derived, own⟩ := tokens_of_writes written
    refine ⟨tokens ++ [], .values derived .done, .next derived .done, fun rest closed => ?_⟩
    rw [List.append_nil]
    exact tokens_between before after closed.delimited own
  | @WritesAll.next _ _ _ _ _ further before written after others => by
    obtain ⟨tokens, derived, own⟩ := tokens_of_writes written
    obtain ⟨tokens', _, derived', own'⟩ := tokens_of_writesAll others
    -- If nothing but blanks is left, this comma is the one behind the last item.
    refine ⟨tokens ++ .comma :: tokens', .values derived derived', .next derived derived',
      fun rest closed => ?_⟩
    have comma : Lexeme.tokens (',' :: (further ++ rest)) =
        .comma :: Lexeme.tokens (further ++ rest) :=
      tokens_of_fixed (show ([','], .comma) ∈ Token.fixed by decide)
    rw [List.append_assoc _ _ rest, List.cons_append,
      tokens_between before after (Token.delimited_cons (.inr (.inl rfl))) own, comma,
      own' rest closed, List.append_assoc]
    rfl

end

/-- The tokens of a written text are those of its drafts. -/
theorem derives_of_writesAll (h : WritesAll drafts text) :
    Derives .values (phrases drafts) ((Lexeme.scan text).map Lexeme.token) := by
  obtain ⟨tokens, derived, _, own⟩ := tokens_of_writesAll h
  have all := own [] (.inl rfl)
  rw [List.append_nil, Lexeme.tokens_nil, List.append_nil] at all
  change (Lexeme.scan text).map Lexeme.token = tokens at all
  rwa [all]

/-! ## Every draft can be written -/

theorem exists_body (text : List Char) : ∃ body, Token.Body text body := by
  induction text with
  | nil => exact ⟨[], .nil⟩
  | cons c text ih =>
    obtain ⟨body, written⟩ := ih
    by_cases quote : c = '"'
    · subst quote
      exact ⟨_, .escape (show ('"', '"') ∈ Token.escapes by decide) written⟩
    by_cases backslash : c = '\\'
    · subst backslash
      exact ⟨_, .escape (show ('\\', '\\') ∈ Token.escapes by decide) written⟩
    exact ⟨_, .raw quote backslash written⟩

mutual

theorem exists_writes : (draft : Draft) → ∃ text, Writes draft text
  | none => ⟨_, .none⟩
  | bool false => ⟨_, .false⟩
  | bool true => ⟨_, .true⟩
  | int value => ⟨_, .int value⟩
  | float number => ⟨_, .float number⟩
  | string text => by
    obtain ⟨body, written⟩ := exists_body text
    exact ⟨_, .string written⟩
  | list items => by
    obtain ⟨inner, written⟩ := exists_writesAll items
    exact ⟨_, .list written⟩

theorem exists_writesAll : (drafts : List Draft) → ∃ text, WritesAll drafts text
  | [] => ⟨[], .blank nofun⟩
  | draft :: drafts => by
    obtain ⟨text, written⟩ := exists_writes draft
    obtain ⟨rest, others⟩ := exists_writesAll drafts
    have nothing : Blank [] := nofun
    exact ⟨_, .next nothing written nothing others⟩

end

end Draft

namespace Machine

variable {machine : Machine} {state : State}

/-- Reading the spelling of a float gives its value. -/
theorem gives_parseFloat (number : FloatText) {ref : Ref}
    (held : (state.heap.get ref).payload = .string (Utf8.encode number.text)) :
    (machine.runString .parseFloat [ref]).Gives state fun value heap =>
      heap.Holds value ⟨machine.ids.float, .float number.value⟩ := by
  refine Exec.gives_bind_ok (Arguments.receiver_ok (by rw [held]; rfl)) ?_
  simp only [Utf8.decodeLossy_encode, Double.ofText?_text]
  exact Exec.gives_alloc _ state

/-- **Reading undoes writing.** Every list of drafts can be written, and each text that was written
for it is read as copies of the values that it stands for, in order. The floats among these are what
the method that reads floats makes of their spellings. -/
theorem readValues_of_writes (live : machine.Live state) :
    (∀ drafts, ∃ text, Draft.WritesAll drafts text) ∧
    (∀ drafts text, Draft.WritesAll drafts text →
      ∃ values after, machine.readValues text state = .ok (.ok values) after ∧
        machine.SpellsAll after.heap (Draft.literals drafts) values) ∧
    ∀ (number : FloatText) (before : State) (ref : Ref),
      (before.heap.get ref).payload = .string (Utf8.encode number.text) →
        (machine.runString .parseFloat [ref]).Gives before fun value heap =>
          heap.Holds value ⟨machine.ids.float, .float number.value⟩ := by
  refine ⟨Draft.exists_writesAll, ?_, fun number before ref => gives_parseFloat number⟩
  intro drafts text written
  have accepted : Literal.read text = .ok (Draft.literals drafts) :=
    ofLexemes_eq_ok_iff.2 ⟨_, Draft.derives_of_writesAll written, Draft.values?_phrases drafts⟩
  exact readValues_of_read live.shares accepted

/-- A list with the least number, a float and a string of a line feed and a quotation mark. -/
theorem readValues_of_writes_list : ∃ number : FloatText, number.text = "1.5e-3".toList ∧
    ∃ values after, bare.readValues "[ -9223372036854775808,1.5e-3\n,\"\\n\\\"\",]".toList bareState =
        .ok (.ok values) after ∧
      bare.SpellsAll after.heap [.array [.int Int64.minValue, .float number.value,
        .string (Utf8.encode ['\n', '"'])]] values := by
  let number : FloatText := ⟨false, .ofNat 1, .ofNat 5, some ⟨false, some true, .ofNat 3⟩⟩
  have nothing : Draft.Blank [] := nofun
  have space : Draft.Blank [' '] := by simp [Draft.Blank, Lexeme.isBlank]
  have feed : Draft.Blank ['\n'] := by simp [Draft.Blank, Lexeme.isBlank]
  have body : Token.Body ['\n', '"'] ['\\', 'n', '\\', '"'] :=
    .escape (by decide) (.escape (by decide) .nil)
  have written : Draft.WritesAll [.list [.int Int64.minValue, .float number, .string ['\n', '"']]] _ :=
    .last nothing (.list (.next space (.int _) nothing (.next nothing (.float number) feed
      (.next nothing (.string body) nothing (.blank nothing))))) nothing
  have live := live_of_assembled assembled_bare
  exact ⟨number, rfl, (readValues_of_writes live).2.1 _ _ written⟩

end Machine

end BoxedValues
