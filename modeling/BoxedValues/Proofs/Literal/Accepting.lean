import BoxedValues.Proofs.Literal.Grammar

/-!
# The reader accepts the grammar

The reader goes through the lexemes once and keeps what it has not finished (`Reading`). It is
compared with the grammar in both directions.

* `meets_of_derives`: what the grammar derives is read as what the phrases denote, and refused if
  they denote nothing; by induction on the derivation;
* `Explains`: the tokens behind a reading, as derived phrases around its unfinished ones. Every step
  keeps them explained (`Explains.step`), so a reading that may end is a derived list of values;
* `ofLexemes_eq_ok_iff`: **the reader accepts exactly the derived token lists with a meaning, and
  returns that meaning**.
-/

set_option autoImplicit false

namespace BoxedValues

namespace Reading

/-- The items of the current list with the value that was just read; none in the middle of an index
or a slice. -/
def gathered (reading : Reading) : Option (List Literal) :=
  match reading.phase with
  | .item => some reading.items
  | .value value => some (value :: reading.items)
  | _ => none

variable {reading : Reading} {lexeme : Lexeme} {items around : List Literal}
  {outer : List (List Literal)}

theorem step_closeBracket (h : reading.gathered = some items) (token : lexeme.token = .closeBracket)
    (level : reading.outer = around :: outer) :
    reading.step lexeme = .ok ⟨outer, around, .value (.array items.reverse)⟩ := by
  obtain ⟨_, current, phase⟩ := reading
  cases level
  cases phase with
  | item =>
    cases h
    simp only [step, token, close]
  | value value =>
    cases h
    simp only [step, token, close]
  | _ => cases h

theorem finish_of_gathered (h : reading.gathered = some items) (level : reading.outer = []) :
    reading.finish = .ok items.reverse := by
  obtain ⟨_, current, phase⟩ := reading
  cases level
  cases phase with
  | item =>
    cases h
    rfl
  | value value =>
    cases h
    rfl
  | _ => cases h

end Reading

/-! ## What is derived is read -/

/-- An outcome of reading fits what is denoted: there is a reading with the property if something
is, and otherwise an index or a slice of a scalar is refused. -/
def Meets {α : Type} (outcome : Except ReadError Reading) (denoted : Option α)
    (P : α → Reading → Prop) : Prop :=
  match denoted with
  | some value => ∃ reading, outcome = .ok reading ∧ P value reading
  | none => ∃ type start stop, outcome = .error (.notIndexable type start stop)

theorem Meets.bind {α β : Type} {reading : Reading} {lexemes further : List Lexeme}
    {denoted : Option α} {more : α → Option β} {P : α → Reading → Prop} {Q : β → Reading → Prop}
    (h : Meets (lexemes.foldlM Reading.step reading) denoted P)
    (rest : ∀ value after, P value after →
      Meets (further.foldlM Reading.step after) (more value) Q) :
    Meets ((lexemes ++ further).foldlM Reading.step reading) (denoted.bind more) Q := by
  rw [List.foldlM_append]
  cases denoted with
  | none =>
    obtain ⟨type, start, stop, failed⟩ := h
    exact ⟨type, start, stop, by rw [failed]; rfl⟩
  | some value =>
    obtain ⟨after, reached, property⟩ := h
    rw [reached]
    exact rest value after property

theorem Meets.map {α β : Type} {outcome : Except ReadError Reading} {denoted : Option α}
    {f : α → β} {P : α → Reading → Prop} {Q : β → Reading → Prop} (h : Meets outcome denoted P)
    (implies : ∀ value reading, P value reading → Q (f value) reading) :
    Meets outcome (denoted.map f) Q := by
  cases denoted with
  | none => exact h
  | some value =>
    obtain ⟨reading, reached, property⟩ := h
    exact ⟨reading, reached, implies value reading property⟩

namespace Nonterminal

/-- Where a reading has to be when a part begins. -/
def Begins : Nonterminal → Reading → Prop
  | .rest, reading => ∃ value, reading.phase = .value value
  | _, reading => reading.phase = .item

/-- How a reading changes when a part with the given values was read. -/
def Reads (symbol : Nonterminal) (before : Reading) (values : List Literal) (after : Reading) :
    Prop :=
  match symbol with
  | .atom | .value => ∃ value, values = [value] ∧ after = { before with phase := .value value }
  | .values | .rest => after.outer = before.outer ∧
      ∃ items, before.gathered = some items ∧ after.gathered = some (values.reverse ++ items)

end Nonterminal

theorem foldlM_step_cons {reading after : Reading} {lexeme : Lexeme} (rest : List Lexeme)
    (h : reading.step lexeme = .ok after) :
    (lexeme :: rest).foldlM Reading.step reading = rest.foldlM Reading.step after := by
  rw [List.foldlM_cons, h]
  rfl

theorem foldlM_step_singleton (reading : Reading) (lexeme : Lexeme) :
    [lexeme].foldlM Reading.step reading = reading.step lexeme := by
  rw [List.foldlM_cons]
  exact bind_pure (reading.step lexeme)

/-- A value of one token. -/
theorem meets_token {reading : Reading} {lexemes : List Lexeme} {token : Token} {phrase : Phrase}
    {value : Literal} (denotes : phrase.value? = some value)
    (steps : ∀ lexeme, lexeme.token = token →
      reading.step lexeme = .ok { reading with phase := .value value })
    (spelled : lexemes.map Lexeme.token = [token]) :
    Meets (lexemes.foldlM Reading.step reading) (Phrase.values? [phrase])
      (Nonterminal.atom.Reads reading) := by
  obtain ⟨lexeme, rfl, same⟩ := List.map_eq_singleton_iff.1 spelled
  rw [foldlM_step_singleton, steps lexeme same, Phrase.values?_singleton, denotes]
  exact ⟨_, rfl, value, rfl, rfl⟩

/-- The end of an index or a slice. -/
theorem meets_select {reading : Reading} {target : Literal} {start : Nat} {result : Option Literal}
    {lexeme : Lexeme} : Meets (reading.select target start result lexeme) result
      fun value after => after = { reading with phase := .value value } := by
  cases result with
  | none => exact ⟨_, _, _, rfl⟩
  | some value => exact ⟨_, rfl, rfl⟩

section

variable {reading : Reading} {target : Literal} {lexemes : List Lexeme}

/-- The lexemes between the brackets of an index or a slice. What is left to do is to select. -/
theorem foldlM_inner {start : Nat} {selector : Selector} (phase : reading.phase = .bracket target start)
    (spelled : lexemes.map Lexeme.token = selector.tokens) :
    ∃ after, lexemes.foldlM Reading.step reading = .ok after ∧
      ∀ closing, closing.token = .closeBracket →
        after.step closing = reading.select target start (selector.select? target) closing := by
  cases selector with
  | index position =>
    obtain ⟨number, rfl, token⟩ := List.map_eq_singleton_iff.1 spelled
    refine ⟨{ reading with phase := .index target start position }, ?_, ?_⟩
    · rw [foldlM_step_singleton]
      simp only [Reading.step, phase, token, Reading.goto]
    · intro closing token
      simp only [Reading.step, token]
      rfl
  | slice first last =>
    obtain ⟨front, further, rfl, before, spelled⟩ := List.map_eq_append_iff.1 spelled
    obtain ⟨colon, back, rfl, token, behind⟩ := List.map_eq_cons_iff.1 spelled
    have reached : (front ++ [colon]).foldlM Reading.step reading =
        .ok { reading with phase := .colon target start first } := by
      cases first with
      | none =>
        obtain rfl := List.map_eq_nil_iff.1 before
        rw [List.nil_append, foldlM_step_singleton]
        simp only [Reading.step, phase, token, Reading.goto]
      | some position =>
        obtain ⟨number, rfl, token'⟩ := List.map_eq_singleton_iff.1 before
        have stepped : reading.step number =
            .ok { reading with phase := .index target start position } := by
          simp only [Reading.step, phase, token', Reading.goto]
        rw [List.singleton_append, foldlM_step_cons _ stepped, foldlM_step_singleton]
        simp only [Reading.step, token, Reading.goto]
    rw [List.append_cons, List.foldlM_append, reached]
    cases last with
    | none =>
      obtain rfl := List.map_eq_nil_iff.1 behind
      refine ⟨{ reading with phase := .colon target start first }, rfl, ?_⟩
      intro closing token
      simp only [Reading.step, token]
      rfl
    | some position =>
      obtain ⟨number, rfl, token'⟩ := List.map_eq_singleton_iff.1 behind
      refine ⟨{ reading with phase := .range target start first position }, ?_, ?_⟩
      · show [number].foldlM Reading.step _ = _
        rw [foldlM_step_singleton]
        simp only [Reading.step, token', Reading.goto]
      · intro closing token
        simp only [Reading.step, token]
        rfl

/-- The lexemes of an index or a slice before its closing bracket. -/
theorem foldlM_selector {opening : Lexeme} {selector : Selector} (phase : reading.phase = .value target)
    (token : opening.token = .openBracket) (spelled : lexemes.map Lexeme.token = selector.tokens) :
    ∃ after, (opening :: lexemes).foldlM Reading.step reading = .ok after ∧
      ∀ closing, closing.token = .closeBracket →
        after.step closing = reading.select target opening.start (selector.select? target) closing := by
  have opened : reading.step opening = .ok { reading with phase := .bracket target opening.start } := by
    simp only [Reading.step, phase, token, Reading.goto]
  rw [foldlM_step_cons _ opened]
  have bracket : ({ reading with phase := .bracket target opening.start } : Reading).phase =
      .bracket target opening.start := rfl
  exact foldlM_inner bracket spelled

/-- An index or a slice of a value is what it selects. -/
theorem meets_selector (selector : Selector) (phase : reading.phase = .value target)
    (spelled : lexemes.map Lexeme.token = .openBracket :: selector.tokens ++ [.closeBracket]) :
    Meets (lexemes.foldlM Reading.step reading) (selector.select? target)
      fun value after => after = { reading with phase := .value value } := by
  obtain ⟨front, _, rfl, front', back⟩ := List.map_eq_append_iff.1 spelled
  obtain ⟨opening, inner, rfl, token, inside⟩ := List.map_eq_cons_iff.1 front'
  obtain ⟨closing, rfl, token'⟩ := List.map_eq_singleton_iff.1 back
  obtain ⟨after, reached, selects⟩ := foldlM_selector phase token inside
  rw [List.foldlM_append, reached]
  show Meets ([closing].foldlM Reading.step after) _ _
  rw [foldlM_step_singleton, selects closing token']
  exact meets_select

end

theorem meets_value_iff {outcome : Except ReadError Reading} {phrase : Phrase} {reading : Reading} :
    Meets outcome (Phrase.values? [phrase]) (Nonterminal.value.Reads reading) ↔
      Meets outcome phrase.value? fun value after => after = { reading with phase := .value value } := by
  rw [Phrase.values?_singleton]
  cases phrase.value? with
  | none => exact Iff.rfl
  | some value =>
    constructor
    · rintro ⟨after, reached, _, same, change⟩
      cases same
      exact ⟨after, reached, change⟩
    · rintro ⟨after, reached, change⟩
      exact ⟨after, reached, value, rfl, change⟩

/-- The items of a list between its brackets. -/
theorem meets_list {reading : Reading} {opening closing : Lexeme} {inner : List Lexeme}
    {items : List Phrase} (phase : reading.phase = .item) (token : opening.token = .openBracket)
    (token' : closing.token = .closeBracket)
    (inside : Meets (inner.foldlM Reading.step ⟨reading.items :: reading.outer, [], .item⟩)
      (Phrase.values? items)
      (Nonterminal.values.Reads ⟨reading.items :: reading.outer, [], .item⟩)) :
    Meets ((opening :: inner ++ [closing]).foldlM Reading.step reading)
      (Phrase.values? [.list items]) (Nonterminal.atom.Reads reading) := by
  have opened : reading.step opening = .ok ⟨reading.items :: reading.outer, [], .item⟩ := by
    simp only [Reading.step, phase, token]
  have denotes : Phrase.values? [.list items] =
      (Phrase.values? items).bind fun values => some [.array values] := by
    rw [Phrase.values?_singleton, Phrase.value?]
    cases Phrase.values? items <;> rfl
  rw [List.cons_append, foldlM_step_cons _ opened, denotes]
  apply inside.bind
  rintro values after ⟨level, _, none, gathered⟩
  cases none
  rw [foldlM_step_singleton, Reading.step_closeBracket gathered token' level]
  refine ⟨_, rfl, .array values, rfl, ?_⟩
  rw [List.append_nil, List.reverse_reverse]

/-- A value at the beginning of an item, and what comes after it in its list. -/
theorem meets_item {before reading : Reading} {first further : List Lexeme}
    {phrases others : List Phrase} (level : reading.outer = before.outer)
    (gathered : before.gathered = some reading.items)
    (head : Meets (first.foldlM Reading.step reading) (Phrase.values? phrases)
      (Nonterminal.value.Reads reading))
    (tail : ∀ value, Meets (further.foldlM Reading.step { reading with phase := .value value })
      (Phrase.values? others) (Nonterminal.rest.Reads { reading with phase := .value value })) :
    Meets ((first ++ further).foldlM Reading.step reading) (Phrase.values? (phrases ++ others))
      (Nonterminal.values.Reads before) := by
  rw [Phrase.values?_append]
  apply head.bind
  rintro _ after ⟨value, rfl, rfl⟩
  apply (tail value).map
  rintro values last ⟨outer, _, same, found⟩
  cases same
  refine ⟨outer.trans level, reading.items, gathered, ?_⟩
  rw [found, List.reverse_append, List.append_assoc]
  rfl

/-- **What is derived is read as what it denotes.** -/
theorem meets_of_derives {symbol : Nonterminal} {phrases : List Phrase} {tokens : List Token}
    (h : Derives symbol phrases tokens) (lexemes : List Lexeme) (reading : Reading)
    (spelled : lexemes.map Lexeme.token = tokens) (begins : symbol.Begins reading) :
    Meets (lexemes.foldlM Reading.step reading) (Phrase.values? phrases) (symbol.Reads reading) := by
  induction h generalizing lexemes reading with
  | none | true | false | int | float | string =>
    have phase : reading.phase = .item := begins
    refine meets_token (by rw [Phrase.value?]) ?_ spelled
    intro lexeme token
    simp only [Reading.step, phase, token, Reading.goto]
  | list derived ih =>
    obtain ⟨_, _, rfl, front, last⟩ := List.map_eq_append_iff.1 spelled
    obtain ⟨opening, inner, rfl, token, inside⟩ := List.map_eq_cons_iff.1 front
    obtain ⟨closing, rfl, token'⟩ := List.map_eq_singleton_iff.1 last
    exact meets_list begins token token' (ih inner _ inside rfl)
  | atom derived ih => exact ih lexemes reading spelled begins
  | index position derived ih =>
    obtain ⟨target, brackets, rfl, spelled, spelled'⟩ := List.map_eq_append_iff.1 spelled
    rw [meets_value_iff, Phrase.value?]
    refine (meets_value_iff.1 (ih target reading spelled begins)).bind ?_
    rintro value after rfl
    exact meets_selector (.index position) rfl spelled'
  | slice first last derived ih =>
    rw [List.append_assoc, List.append_assoc] at spelled
    obtain ⟨target, brackets, rfl, spelled, spelled'⟩ := List.map_eq_append_iff.1 spelled
    rw [meets_value_iff, Phrase.value?]
    refine (meets_value_iff.1 (ih target reading spelled begins)).bind ?_
    rintro value after rfl
    refine meets_selector (.slice first last) rfl ?_
    rw [spelled', Selector.tokens]
    simp only [List.cons_append, List.append_assoc]
  | empty =>
    have phase : reading.phase = .item := begins
    obtain rfl := List.map_eq_nil_iff.1 spelled
    exact ⟨reading, rfl, rfl, reading.items, by simp only [Reading.gathered, phase],
      by simp only [Reading.gathered, phase]; rfl⟩
  | values derived more ih ih' =>
    have phase : reading.phase = .item := begins
    obtain ⟨first, further, rfl, spelled, spelled'⟩ := List.map_eq_append_iff.1 spelled
    have gathered : reading.gathered = some reading.items := by
      simp only [Reading.gathered, phase]
    exact meets_item rfl gathered (ih first reading spelled begins) fun value =>
      ih' further _ spelled' ⟨value, rfl⟩
  | done =>
    obtain ⟨value, phase⟩ := begins
    obtain rfl := List.map_eq_nil_iff.1 spelled
    exact ⟨reading, rfl, rfl, value :: reading.items, by simp only [Reading.gathered, phase],
      by simp only [Reading.gathered, phase]; rfl⟩
  | comma =>
    obtain ⟨value, phase⟩ := begins
    obtain ⟨lexeme, rfl, token⟩ := List.map_eq_singleton_iff.1 spelled
    have stepped : reading.step lexeme = .ok ⟨reading.outer, value :: reading.items, .item⟩ := by
      simp only [Reading.step, phase, token]
    rw [foldlM_step_singleton, stepped]
    exact ⟨_, rfl, rfl, value :: reading.items, by simp only [Reading.gathered, phase], rfl⟩
  | next derived more ih ih' =>
    obtain ⟨value, phase⟩ := begins
    obtain ⟨_, further, rfl, spelled, spelled'⟩ := List.map_eq_append_iff.1 spelled
    obtain ⟨lexeme, first, rfl, token, spelled⟩ := List.map_eq_cons_iff.1 spelled
    have stepped : reading.step lexeme = .ok ⟨reading.outer, value :: reading.items, .item⟩ := by
      simp only [Reading.step, phase, token]
    have gathered : reading.gathered = some (value :: reading.items) := by
      simp only [Reading.gathered, phase]
    rw [List.cons_append, foldlM_step_cons _ stepped]
    exact meets_item rfl gathered (ih first _ spelled rfl) fun value =>
      ih' further _ spelled' ⟨value, rfl⟩

/-! ## What is read is derived -/

/-- The tokens spell a value with this meaning. -/
def Spelled (value : Literal) (tokens : List Token) : Prop :=
  ∃ phrase, Derives .value [phrase] tokens ∧ phrase.value? = some value

/-- The tokens spell the values of a list, newest first, each with a comma behind it. -/
inductive Listed : List Literal → List Token → Prop where
  | nil : Listed [] []
  | snoc {items : List Literal} {value : Literal} {tokens further : List Token} :
      Listed items tokens → Spelled value further →
        Listed (value :: items) (tokens ++ further ++ [.comma])

/-- The tokens begin the lists around the current one, innermost first. -/
inductive Around : List (List Literal) → List Token → Prop where
  | nil : Around [] []
  | snoc {outer : List (List Literal)} {items : List Literal} {tokens further : List Token} :
      Around outer tokens → Listed items further →
        Around (items :: outer) (tokens ++ further ++ [.openBracket])

/-- The tokens are those of the current item so far. -/
def Phase.Explains : Phase → List Token → Prop
  | .item, tokens => tokens = []
  | .value found, tokens => Spelled found tokens
  | .bracket target _, tokens => ∃ before, Spelled target before ∧ tokens = before ++ [.openBracket]
  | .index target _ position, tokens => ∃ before, Spelled target before ∧
      tokens = before ++ [.openBracket, .int position]
  | .colon target _ first, tokens => ∃ before, Spelled target before ∧
      tokens = before ++ .openBracket :: Token.endpoint first ++ [.colon]
  | .range target _ first last, tokens => ∃ before, Spelled target before ∧
      tokens = before ++ .openBracket :: Token.endpoint first ++ [.colon, .int last]

/-- The tokens are all that was read up to here. -/
def Explains (reading : Reading) (tokens : List Token) : Prop :=
  ∃ around listed current, Around reading.outer around ∧ Listed reading.items listed ∧
    reading.phase.Explains current ∧ tokens = around ++ listed ++ current

theorem explains_initial : Explains .initial [] := ⟨[], [], [], .nil, .nil, rfl, rfl⟩

/-- The values before the last comma go on with whatever is derived behind it. -/
theorem Listed.prefixed {items : List Literal} {tokens : List Token} (h : Listed items tokens) :
    ∃ front, Phrase.values? front = some items.reverse ∧
      ∀ {phrases further}, Derives .values phrases further →
        Derives .values (front ++ phrases) (tokens ++ further) := by
  induction h with
  | nil => exact ⟨[], rfl, id⟩
  | @snoc items value tokens current _ spelled ih =>
    obtain ⟨phrase, derived, meaning⟩ := spelled
    obtain ⟨front, denotes, derives⟩ := ih
    refine ⟨front ++ [phrase], ?_, ?_⟩
    · rw [Phrase.values?_append, denotes, Phrase.values?_singleton, meaning, List.reverse_cons]
      rfl
    · intro phrases further more
      have longer : Derives .values ([phrase] ++ phrases) (current ++ .comma :: further) := by
        cases more with
        | empty => exact .values derived .comma
        | values first rest => exact .values derived (.next first rest)
      rw [List.append_assoc, List.append_assoc, List.append_assoc]
      exact derives longer

/-- The current list is derived, if it may end here. -/
theorem derives_of_gathered {reading : Reading} {listed current : List Token} {values : List Literal}
    (items : Listed reading.items listed) (phase : reading.phase.Explains current)
    (gathered : reading.gathered = some values) :
    ∃ phrases, Derives .values phrases (listed ++ current) ∧
      Phrase.values? phrases = some values.reverse := by
  obtain ⟨outer, before, stage⟩ := reading
  obtain ⟨front, denotes, derives⟩ := items.prefixed
  cases stage with
  | item =>
    cases gathered
    cases phase
    refine ⟨front ++ [], derives .empty, ?_⟩
    rw [List.append_nil, denotes]
  | value value =>
    cases gathered
    obtain ⟨phrase, derived, meaning⟩ := phase
    have last : Derives .values ([phrase] ++ []) (current ++ []) := .values derived .done
    rw [List.append_nil, List.append_nil] at last
    refine ⟨front ++ [phrase], derives last, ?_⟩
    rw [Phrase.values?_append, denotes, Phrase.values?_singleton, meaning, List.reverse_cons]
    rfl
  | _ => cases gathered

/-- An index or a slice is spelled by its value, the brackets and what is between them. -/
theorem Spelled.selected {target value : Literal} {before : List Token} (h : Spelled target before)
    (selector : Selector) (result : selector.select? target = some value) :
    Spelled value (before ++ .openBracket :: selector.tokens ++ [.closeBracket]) := by
  obtain ⟨phrase, derived, meaning⟩ := h
  refine ⟨selector.applied phrase, Selector.derives_applied derived, ?_⟩
  rw [Selector.value?_applied, meaning]
  exact result

section

variable {reading next : Reading} {tokens : List Token} {token : Token} {lexeme : Lexeme}

/-- One more token of the current item. -/
theorem Explains.goto (h : Explains reading tokens) {phase : Phase}
    (change : ∀ current, reading.phase.Explains current → phase.Explains (current ++ [token])) :
    Explains { reading with phase } (tokens ++ [token]) := by
  obtain ⟨around, listed, current, outer, items, explained, rfl⟩ := h
  exact ⟨around, listed, current ++ [token], outer, items, change current explained,
    List.append_assoc _ _ _⟩

theorem Explains.close {items : List Literal} (h : Explains reading tokens)
    (gathered : reading.gathered = some items)
    (closed : reading.close items lexeme = .ok next) :
    Explains next (tokens ++ [.closeBracket]) := by
  obtain ⟨_, listed, current, outer, before, explained, rfl⟩ := h
  obtain ⟨phrases, derived, denotes⟩ := derives_of_gathered before explained gathered
  unfold Reading.close at closed
  split at closed
  · cases closed
  · rename_i level
    rw [level] at outer
    cases closed
    cases outer with
    | snoc outer inside =>
      refine ⟨_, _, .openBracket :: (listed ++ current) ++ [.closeBracket], outer, inside,
        ⟨.list phrases, .atom (.list derived), ?_⟩, ?_⟩
      · rw [Phrase.value?, denotes]
        rfl
      · simp only [List.append_assoc, List.cons_append, List.nil_append]

theorem Explains.select {target : Literal} {start : Nat} {result : Option Literal}
    (h : Explains reading tokens)
    (change : ∀ current value, result = some value → reading.phase.Explains current →
      Spelled value (current ++ [token]))
    (selected : reading.select target start result lexeme = .ok next) :
    Explains next (tokens ++ [token]) := by
  cases result with
  | none => cases selected
  | some value =>
    cases selected
    exact h.goto fun current explained => change current value rfl explained

/-- A step at the beginning of an item: a value of one token, or a bracket. -/
theorem Explains.step_item (h : Explains reading tokens) (phase : reading.phase = .item)
    (stepped : reading.step lexeme = .ok next) : Explains next (tokens ++ [lexeme.token]) := by
  have atom {token : Token} {phrase : Phrase} {value : Literal}
      (derived : Derives .atom [phrase] [token]) (meaning : phrase.value? = some value) :
      Explains { reading with phase := .value value } (tokens ++ [token]) := by
    apply h.goto
    intro current explained
    rw [phase] at explained
    cases explained
    exact ⟨phrase, .atom derived, meaning⟩
  cases token : lexeme.token with
  | closeBracket =>
    simp only [Reading.step, phase, token] at stepped
    exact h.close (by simp only [Reading.gathered, phase]) stepped
  | openBracket =>
    simp only [Reading.step, phase, token] at stepped
    cases stepped
    obtain ⟨around, listed, current, outer, items, explained, rfl⟩ := h
    rw [phase] at explained
    cases explained
    refine ⟨_, [], [], .snoc outer items, .nil, rfl, ?_⟩
    simp only [List.append_nil]
  | none =>
    simp only [Reading.step, phase, token] at stepped
    cases stepped
    exact atom .none rfl
  | true =>
    simp only [Reading.step, phase, token] at stepped
    cases stepped
    exact atom .true rfl
  | false =>
    simp only [Reading.step, phase, token] at stepped
    cases stepped
    exact atom .false rfl
  | int value =>
    simp only [Reading.step, phase, token] at stepped
    cases stepped
    exact atom (.int value) rfl
  | float value =>
    simp only [Reading.step, phase, token] at stepped
    cases stepped
    exact atom (.float value) rfl
  | string text =>
    simp only [Reading.step, phase, token] at stepped
    cases stepped
    exact atom (.string text) rfl
  | _ =>
    simp only [Reading.step, phase, token] at stepped
    cases stepped

/-- A step behind a value: it ends, or an index or a slice of it begins. -/
theorem Explains.step_value {value : Literal} (h : Explains reading tokens)
    (phase : reading.phase = .value value) (stepped : reading.step lexeme = .ok next) :
    Explains next (tokens ++ [lexeme.token]) := by
  cases token : lexeme.token with
  | openBracket =>
    simp only [Reading.step, phase, token] at stepped
    cases stepped
    apply h.goto
    intro current explained
    rw [phase] at explained
    exact ⟨current, explained, rfl⟩
  | comma =>
    simp only [Reading.step, phase, token] at stepped
    cases stepped
    obtain ⟨around, listed, current, outer, items, explained, rfl⟩ := h
    rw [phase] at explained
    refine ⟨around, _, [], outer, .snoc items explained, rfl, ?_⟩
    simp only [List.append_assoc, List.append_nil]
  | closeBracket =>
    simp only [Reading.step, phase, token] at stepped
    exact h.close (by simp only [Reading.gathered, phase]) stepped
  | _ =>
    simp only [Reading.step, phase, token] at stepped
    cases stepped

variable {target : Literal} {start : Nat} {first : Option Int64}

/-- A step behind the bracket that begins an index or a slice. -/
theorem Explains.step_bracket (h : Explains reading tokens)
    (phase : reading.phase = .bracket target start) (stepped : reading.step lexeme = .ok next) :
    Explains next (tokens ++ [lexeme.token]) := by
  cases token : lexeme.token with
  | int position =>
    simp only [Reading.step, phase, token] at stepped
    cases stepped
    apply h.goto
    intro current explained
    rw [phase] at explained
    obtain ⟨before, spelled, rfl⟩ := explained
    exact ⟨before, spelled, List.append_assoc _ _ _⟩
  | colon =>
    simp only [Reading.step, phase, token] at stepped
    cases stepped
    apply h.goto
    intro current explained
    rw [phase] at explained
    obtain ⟨before, spelled, rfl⟩ := explained
    exact ⟨before, spelled, rfl⟩
  | _ =>
    simp only [Reading.step, phase, token] at stepped
    cases stepped

/-- A step behind the first integer of an index or a slice. -/
theorem Explains.step_index {position : Int64} (h : Explains reading tokens)
    (phase : reading.phase = .index target start position)
    (stepped : reading.step lexeme = .ok next) : Explains next (tokens ++ [lexeme.token]) := by
  cases token : lexeme.token with
  | colon =>
    simp only [Reading.step, phase, token] at stepped
    cases stepped
    apply h.goto
    intro current explained
    rw [phase] at explained
    obtain ⟨before, spelled, rfl⟩ := explained
    refine ⟨before, spelled, ?_⟩
    rw [List.append_assoc, List.append_assoc]
    rfl
  | closeBracket =>
    simp only [Reading.step, phase, token] at stepped
    refine h.select ?_ stepped
    intro current value result explained
    rw [phase] at explained
    obtain ⟨before, spelled, rfl⟩ := explained
    exact spelled.selected (.index position) result
  | _ =>
    simp only [Reading.step, phase, token] at stepped
    cases stepped

/-- A step behind the colon of a slice. -/
theorem Explains.step_colon (h : Explains reading tokens)
    (phase : reading.phase = .colon target start first)
    (stepped : reading.step lexeme = .ok next) : Explains next (tokens ++ [lexeme.token]) := by
  cases token : lexeme.token with
  | int last =>
    simp only [Reading.step, phase, token] at stepped
    cases stepped
    apply h.goto
    intro current explained
    rw [phase] at explained
    obtain ⟨before, spelled, rfl⟩ := explained
    exact ⟨before, spelled, List.append_assoc _ _ _⟩
  | closeBracket =>
    simp only [Reading.step, phase, token] at stepped
    refine h.select ?_ stepped
    intro current value result explained
    rw [phase] at explained
    obtain ⟨before, spelled, rfl⟩ := explained
    have slice := spelled.selected (.slice first none) result
    rwa [Selector.tokens, ← List.cons_append, ← List.append_assoc] at slice
  | _ =>
    simp only [Reading.step, phase, token] at stepped
    cases stepped

/-- A step behind both endpoints of a slice. -/
theorem Explains.step_range {last : Int64} (h : Explains reading tokens)
    (phase : reading.phase = .range target start first last)
    (stepped : reading.step lexeme = .ok next) : Explains next (tokens ++ [lexeme.token]) := by
  cases token : lexeme.token with
  | closeBracket =>
    simp only [Reading.step, phase, token] at stepped
    refine h.select ?_ stepped
    intro current value result explained
    rw [phase] at explained
    obtain ⟨before, spelled, rfl⟩ := explained
    have slice := spelled.selected (.slice first (some last)) result
    rwa [Selector.tokens, ← List.cons_append, ← List.append_assoc] at slice
  | _ =>
    simp only [Reading.step, phase, token] at stepped
    cases stepped

/-- **Every step keeps the tokens explained.** -/
theorem Explains.step (h : Explains reading tokens) (stepped : reading.step lexeme = .ok next) :
    Explains next (tokens ++ [lexeme.token]) := by
  cases phase : reading.phase with
  | item => exact h.step_item phase stepped
  | value value => exact h.step_value phase stepped
  | bracket target start => exact h.step_bracket phase stepped
  | index target start position => exact h.step_index phase stepped
  | colon target start first => exact h.step_colon phase stepped
  | range target start first last => exact h.step_range phase stepped

end

/-- What a whole run has read is explained. -/
theorem Explains.foldlM {lexemes : List Lexeme} {reading last : Reading} {tokens : List Token}
    (h : Explains reading tokens) (ran : lexemes.foldlM Reading.step reading = .ok last) :
    Explains last (tokens ++ lexemes.map Lexeme.token) := by
  induction lexemes generalizing reading tokens with
  | nil =>
    cases ran
    rwa [List.map_nil, List.append_nil]
  | cons lexeme rest ih =>
    rw [List.foldlM_cons] at ran
    cases stepped : reading.step lexeme with
    | error error =>
      rw [stepped] at ran
      cases ran
    | ok next =>
      rw [stepped] at ran
      have further := ih (h.step stepped) ran
      rwa [List.append_assoc] at further

/-- A reading that may end has gathered the values outside all lists. -/
theorem gathered_of_finish {reading : Reading} {values : List Literal}
    (h : reading.finish = .ok values) :
    reading.outer = [] ∧ reading.gathered = some values.reverse := by
  unfold Reading.finish at h
  split at h
  · rename_i outer phase
    cases h
    exact ⟨outer, by simp only [Reading.gathered, phase, List.reverse_reverse]⟩
  · rename_i value outer phase
    cases h
    exact ⟨outer, by simp only [Reading.gathered, phase, List.reverse_reverse]⟩
  · cases h

/-! ## Both together -/

variable {lexemes : List Lexeme} {values : List Literal}

/-- A derived list of values is read as what it denotes, and refused if it denotes nothing. -/
theorem ofLexemes_of_derives {phrases : List Phrase}
    (h : Derives .values phrases (lexemes.map Lexeme.token)) :
    Literal.ofLexemes lexemes = .ok values ↔ Phrase.values? phrases = some values := by
  have meets := meets_of_derives h lexemes .initial rfl rfl
  unfold Literal.ofLexemes
  cases denotes : Phrase.values? phrases with
  | none =>
    rw [denotes] at meets
    obtain ⟨type, start, stop, failed⟩ := meets
    rw [failed]
    exact iff_of_false nofun nofun
  | some found =>
    rw [denotes] at meets
    obtain ⟨last, reached, level, _, none, gathered⟩ := meets
    cases none
    rw [reached]
    show last.finish = .ok values ↔ _
    have nothing : Reading.initial.items = [] := rfl
    rw [Reading.finish_of_gathered gathered level, nothing, List.append_nil, List.reverse_reverse,
      Except.ok.injEq, Option.some.injEq]

/-- **The reader accepts exactly the derived token lists with a meaning**, and what it returns is
that meaning. -/
theorem ofLexemes_eq_ok_iff : Literal.ofLexemes lexemes = .ok values ↔
    ∃ phrases, Derives .values phrases (lexemes.map Lexeme.token) ∧
      Phrase.values? phrases = some values := by
  constructor
  · intro accepted
    unfold Literal.ofLexemes at accepted
    cases ran : lexemes.foldlM Reading.step .initial with
    | error error =>
      rw [ran] at accepted
      cases accepted
    | ok last =>
      rw [ran] at accepted
      obtain ⟨level, gathered⟩ := gathered_of_finish accepted
      obtain ⟨around, listed, current, outer, items, explained, spelled⟩ :=
        explains_initial.foldlM ran
      rw [level] at outer
      cases outer
      obtain ⟨phrases, derived, denotes⟩ := derives_of_gathered items explained gathered
      refine ⟨phrases, ?_, by rw [denotes, List.reverse_reverse]⟩
      rw [List.nil_append] at spelled
      rwa [spelled]
  · rintro ⟨phrases, derived, denotes⟩
    exact (ofLexemes_of_derives derived).2 denotes

end BoxedValues
