import BoxedValues.Proofs.Literal.Evaluating
import BoxedValues.Proofs.Literal.Scanning

/-!
# Where reading stops

A text that is not read is refused because of one lexeme, or because of its end. This module says
which, in terms of the grammar alone.

* `Sentence` and `Viable`: what the grammar derives, and the beginnings of that;
* `step_unexpected_iff`: a lexeme is unexpected exactly if it continues no beginning of a sentence;
* `Selects`: the lexemes end with a whole index or slice of a phrase;
* `Machine.Offence`: all that is wrong with a text, each with its place;
* `readValues_refusal`: **reading always ends, and the error is the offence that comes first**.
-/

set_option autoImplicit false

namespace BoxedValues

/-! ## Beginnings of sentences -/

/-- The tokens are a list of values. -/
def Sentence (tokens : List Token) : Prop := ∃ phrases, Derives .values phrases tokens

/-- The tokens can be continued to a list of values, if they are not one. -/
def Viable (tokens : List Token) : Prop := ∃ further, Sentence (tokens ++ further)

theorem Sentence.viable {tokens : List Token} (h : Sentence tokens) : Viable tokens :=
  ⟨[], by rwa [List.append_nil]⟩

theorem Viable.of_append {tokens further : List Token} (h : Viable (tokens ++ further)) :
    Viable tokens := by
  obtain ⟨more, sentence⟩ := h
  exact ⟨further ++ more, by rwa [List.append_assoc] at sentence⟩

/-- The lists around a list can be closed. -/
theorem Around.viable {outer : List (List Literal)} {tokens : List Token} (h : Around outer tokens)
    {phrases : List Phrase} {further : List Token} (inside : Derives .values phrases further) :
    Viable (tokens ++ further) := by
  induction h generalizing phrases further with
  | nil => exact Sentence.viable ⟨phrases, inside⟩
  | @snoc outer items tokens listed _ before ih =>
    obtain ⟨front, _, derives⟩ := before.prefixed
    have list : Derives .values ([.list phrases] ++ [])
        ((.openBracket :: further ++ [.closeBracket]) ++ []) := .values (.atom (.list inside)) .done
    obtain ⟨more, sentence⟩ := ih (derives list)
    refine ⟨.closeBracket :: more, ?_⟩
    simp only [List.append_assoc, List.cons_append, List.nil_append] at sentence ⊢
    exact sentence

/-- So can the list that a value or nothing ends. -/
theorem Listed.viable {outer : List (List Literal)} {items : List Literal}
    {around listed current : List Token} {phrases : List Phrase} (h : Listed items listed)
    (outside : Around outer around) (derived : Derives .values phrases current) :
    Viable (around ++ listed ++ current) := by
  obtain ⟨front, _, derives⟩ := h.prefixed
  rw [List.append_assoc]
  exact outside.viable (derives derived)

theorem derives_values_of_value {phrase : Phrase} {tokens : List Token}
    (h : Derives .value [phrase] tokens) : Derives .values [phrase] tokens := by
  have single : Derives .values ([phrase] ++ []) (tokens ++ []) := .values h .done
  rwa [List.append_nil, List.append_nil] at single

/-- The tokens of an unfinished item can be continued to a value, if there are any. -/
theorem Phase.Explains.completed {phase : Phase} {current : List Token} (h : phase.Explains current) :
    ∃ further phrases, Derives .values phrases (current ++ further) := by
  have selected {target : Literal} {before : List Token} (spelled : Spelled target before)
      (selector : Selector) : ∃ phrase, Derives .values [phrase]
        (before ++ .openBracket :: selector.tokens ++ [.closeBracket]) := by
    obtain ⟨phrase, derived, _⟩ := spelled
    exact ⟨_, derives_values_of_value (selector.derives_applied derived)⟩
  cases phase with
  | item =>
    cases h
    exact ⟨[], [], .empty⟩
  | value value =>
    obtain ⟨phrase, derived, _⟩ := h
    exact ⟨[], [phrase], by rw [List.append_nil]; exact derives_values_of_value derived⟩
  | bracket target start =>
    obtain ⟨before, spelled, rfl⟩ := h
    obtain ⟨phrase, derived⟩ := selected spelled (.index 0)
    refine ⟨[.int 0, .closeBracket], [phrase], ?_⟩
    simpa only [Selector.tokens, List.append_assoc, List.cons_append, List.nil_append] using derived
  | index target start position =>
    obtain ⟨before, spelled, rfl⟩ := h
    obtain ⟨phrase, derived⟩ := selected spelled (.index position)
    exact ⟨[.closeBracket], [phrase], derived⟩
  | colon target start first =>
    obtain ⟨before, spelled, rfl⟩ := h
    obtain ⟨phrase, derived⟩ := selected spelled (.slice first none)
    refine ⟨[.closeBracket], [phrase], ?_⟩
    simpa only [Selector.tokens, Token.endpoint, List.append_assoc, List.cons_append,
      List.nil_append] using derived
  | range target start first last =>
    obtain ⟨before, spelled, rfl⟩ := h
    obtain ⟨phrase, derived⟩ := selected spelled (.slice first (some last))
    refine ⟨[.closeBracket], [phrase], ?_⟩
    simpa only [Selector.tokens, Token.endpoint, List.append_assoc, List.cons_append,
      List.nil_append] using derived

/-- **Whatever was read can be continued to a sentence.** -/
theorem Explains.viable {reading : Reading} {tokens : List Token} (h : Explains reading tokens) :
    Viable tokens := by
  obtain ⟨around, listed, current, outer, items, explained, rfl⟩ := h
  obtain ⟨further, phrases, derived⟩ := explained.completed
  have viable := items.viable outer derived
  rw [← List.append_assoc] at viable
  exact viable.of_append

/-! ## The lexeme that is refused -/

namespace Reading

variable {reading : Reading} {lexeme : Lexeme}

/-- A lexeme is refused because it is unexpected or because it ends an index or a slice of a
scalar. -/
theorem step_error {error : ReadError} (h : reading.step lexeme = .error error) :
    error = .unexpected lexeme.text lexeme.start lexeme.stop ∨
      ∃ type start, error = .notIndexable type start lexeme.stop := by
  unfold step select close goto unexpected at h
  grind

/-- The reading at the end of an index or a slice of a scalar. -/
theorem step_notIndexable {type : BuiltinType} {start stop : Nat}
    (h : reading.step lexeme = .error (.notIndexable type start stop)) :
    lexeme.token = .closeBracket ∧ ∃ target : Literal,
      (∃ position, reading.phase = .index target start position ∧ target.get? position = none) ∨
      (∃ first, reading.phase = .colon target start first ∧
        target.slice? (first.getD 0) Int64.maxValue = none) ∨
      ∃ first last, reading.phase = .range target start first last ∧
        target.slice? (first.getD 0) last = none := by
  unfold step select close goto unexpected at h
  grind

theorem finish_error {error : ReadError} (h : reading.finish = .error error) :
    error = .endOfInput := by
  unfold finish at h
  split at h
  · cases h
  · cases h
  · cases h
    rfl

end Reading

/-- The types whose values have no elements. -/
def BuiltinType.scalars : List BuiltinType := [.none, .bool, .int, .float]

theorem Selector.select?_eq_none_iff {selector : Selector} {target : Literal} :
    selector.select? target = none ↔ target.type ∈ BuiltinType.scalars := by
  cases selector with
  | index position =>
    cases target <;> simp [select?, Literal.get?, Literal.type, BuiltinType.scalars]
  | slice first last =>
    cases target <;> simp [select?, Literal.slice?, Literal.type, BuiltinType.scalars]

/-- The lexemes go on with a closing bracket to an index or a slice of a phrase, which begins where
a value may begin. -/
def Selects (front : List Lexeme) (phrase : Phrase) (opening closing : Lexeme) : Prop :=
  ∃ (before target inner : List Lexeme) (selector : Selector),
    front = before ++ target ++ opening :: inner ∧
      Viable (before.map Lexeme.token ++ [.none]) ∧
        Derives .value [phrase] (target.map Lexeme.token) ∧ opening.token = .openBracket ∧
          inner.map Lexeme.token = selector.tokens ∧ closing.token = .closeBracket

section

variable {front : List Lexeme} {lexeme : Lexeme} {reading : Reading}
  (reads : front.foldlM Reading.step .initial = .ok reading)

include reads

theorem explains_of_reads : Explains reading (front.map Lexeme.token) := by
  have explained := explains_initial.foldlM reads
  rwa [List.nil_append] at explained

/-- What a reading that ends an index or a slice of a scalar has read. -/
theorem spelled_of_notIndexable {type : BuiltinType} {start stop : Nat}
    (h : reading.step lexeme = .error (.notIndexable type start stop)) :
    ∃ (around listed current : List Token) (target : Literal) (selector : Selector),
      Around reading.outer around ∧ Listed reading.items listed ∧ Spelled target current ∧
        front.map Lexeme.token =
          around ++ listed ++ (current ++ .openBracket :: selector.tokens) := by
  obtain ⟨around, listed, tokens, outer, items, explained, same⟩ := explains_of_reads reads
  obtain ⟨_, target, phases⟩ := Reading.step_notIndexable h
  rcases phases with ⟨position, phase, _⟩ | ⟨first, phase, _⟩ | ⟨first, last, phase, _⟩
  · rw [phase] at explained
    obtain ⟨current, spelled, rfl⟩ := explained
    exact ⟨around, listed, current, target, .index position, outer, items, spelled, same⟩
  · rw [phase] at explained
    obtain ⟨current, spelled, rfl⟩ := explained
    refine ⟨around, listed, current, target, .slice first none, outer, items, spelled, ?_⟩
    rw [same, Selector.tokens, List.append_assoc current]
    rfl
  · rw [phase] at explained
    obtain ⟨current, spelled, rfl⟩ := explained
    refine ⟨around, listed, current, target, .slice first (some last), outer, items, spelled, ?_⟩
    rw [same, Selector.tokens, List.append_assoc current]
    rfl

/-- **A lexeme is unexpected exactly if it continues no beginning of a sentence.** -/
theorem step_unexpected_iff :
    reading.step lexeme = .error (.unexpected lexeme.text lexeme.start lexeme.stop) ↔
      ¬Viable (front.map Lexeme.token ++ [lexeme.token]) := by
  constructor
  · rintro failed ⟨further, phrases, derived⟩
    -- The reader would go through the whole sentence, or stop at an index or a slice of a scalar.
    let more : List Lexeme := further.map fun token => ⟨token, 0, []⟩
    have spelled : (front ++ lexeme :: more).map Lexeme.token =
        front.map Lexeme.token ++ [lexeme.token] ++ further := by
      simp [more, Function.comp_def]
    have stopped : (front ++ lexeme :: more).foldlM Reading.step .initial =
        .error (.unexpected lexeme.text lexeme.start lexeme.stop) := by
      rw [List.foldlM_append, reads]
      show (lexeme :: more).foldlM Reading.step reading = _
      rw [List.foldlM_cons, failed]
      rfl
    have meets := meets_of_derives derived (front ++ lexeme :: more) .initial spelled rfl
    rw [stopped] at meets
    cases denoted : Phrase.values? phrases with
    | none =>
      rw [denoted] at meets
      obtain ⟨_, _, _, same⟩ := meets
      cases same
    | some values =>
      rw [denoted] at meets
      obtain ⟨_, same, _⟩ := meets
      cases same
  · intro stuck
    cases stepped : reading.step lexeme with
    | ok next => exact absurd ((explains_of_reads reads).step stepped).viable stuck
    | error error =>
      rcases Reading.step_error stepped with rfl | ⟨type, start, rfl⟩
      · rfl
      · obtain ⟨around, listed, current, target, selector, outer, items, spelled, same⟩ :=
          spelled_of_notIndexable reads stepped
        obtain ⟨phrase, derived, _⟩ := spelled
        have whole := items.viable outer
          (derives_values_of_value (selector.derives_applied derived))
        rw [(Reading.step_notIndexable stepped).1, same] at stuck
        simp only [List.append_assoc, List.cons_append] at whole stuck
        exact absurd whole stuck

/-- Where a value may begin, the reading waits for one. -/
theorem phase_eq_item (viable : Viable (front.map Lexeme.token ++ [.none])) :
    reading.phase = .item := by
  let word : Lexeme := ⟨.none, 0, []⟩
  have accepted : reading.step word ≠ .error (.unexpected word.text word.start word.stop) :=
    fun failed => (step_unexpected_iff reads).1 failed viable
  cases phase : reading.phase with
  | item => rfl
  | _ =>
    refine absurd ?_ accepted
    simp only [Reading.step, phase, word]
    rfl

/-- The closing bracket of an index or a slice of a phrase that makes sense. -/
theorem step_of_selects {phrase : Phrase} {value : Literal} {opening closing : Lexeme}
    (selects : Selects front phrase opening closing) (meaning : phrase.value? = some value) :
    ∃ (around : Reading) (selector : Selector), reading.step closing =
      around.select value opening.start (selector.select? value) closing := by
  obtain ⟨before, target, inner, selector, rfl, begins, derived, token, spelled, token'⟩ := selects
  rw [List.append_assoc, List.foldlM_append] at reads
  cases start : before.foldlM Reading.step .initial with
  | error error =>
    rw [start] at reads
    cases reads
  | ok around =>
    rw [start] at reads
    have phase := phase_eq_item start begins
    have meets := meets_value_iff.1 (meets_of_derives derived target around rfl phase)
    rw [meaning] at meets
    obtain ⟨_, reached, rfl⟩ := meets
    have further : (target ++ opening :: inner).foldlM Reading.step around = .ok reading := reads
    rw [List.foldlM_append, reached] at further
    have selected : ({ around with phase := .value value } : Reading).phase = .value value := rfl
    obtain ⟨after, ran, ends⟩ := foldlM_selector selected token spelled
    have same : after = reading := by
      have both := ran.symm.trans further
      cases both
      rfl
    rw [← same]
    exact ⟨_, selector, ends closing token'⟩

/-- An index or a slice of a scalar is refused. -/
theorem step_of_selects_scalar {phrase : Phrase} {value : Literal} {opening closing : Lexeme}
    (selects : Selects front phrase opening closing) (meaning : phrase.value? = some value)
    (scalar : value.type ∈ BuiltinType.scalars) :
    reading.step closing = .error (.notIndexable value.type opening.start closing.stop) := by
  obtain ⟨around, selector, ends⟩ := step_of_selects reads selects meaning
  rw [ends, Selector.select?_eq_none_iff.2 scalar]
  rfl

/-- Only an index or a slice of a scalar is refused as such. -/
theorem selects_of_notIndexable {type : BuiltinType} {start stop : Nat}
    (h : reading.step lexeme = .error (.notIndexable type start stop)) :
    ∃ phrase value opening, Selects front phrase opening lexeme ∧ phrase.value? = some value ∧
      value.type = type ∧ type ∈ BuiltinType.scalars ∧ opening.start = start ∧
        lexeme.stop = stop := by
  obtain ⟨around, listed, current, value, selector, outer, items, ⟨phrase, derived, meaning⟩, same⟩ :=
    spelled_of_notIndexable reads h
  obtain ⟨before, further, rfl, spelled, behind⟩ := List.map_eq_append_iff.1 same
  obtain ⟨target, brackets, rfl, spelled', behind'⟩ := List.map_eq_append_iff.1 behind
  obtain ⟨opening, inner, rfl, token, inside⟩ := List.map_eq_cons_iff.1 behind'
  have begins : Viable (before.map Lexeme.token ++ [.none]) := by
    rw [spelled]
    exact items.viable outer (derives_values_of_value (.atom .none))
  have selects : Selects (before ++ (target ++ opening :: inner)) phrase opening lexeme := by
    refine ⟨before, target, inner, selector, (List.append_assoc _ _ _).symm, begins, ?_, token,
      inside, (Reading.step_notIndexable h).1⟩
    rwa [spelled']
  obtain ⟨_, other, ends⟩ := step_of_selects reads selects meaning
  rw [h] at ends
  cases selected : other.select? value with
  | some result =>
    rw [selected] at ends
    cases ends
  | none =>
    rw [selected] at ends
    cases ends
    exact ⟨phrase, value, opening, selects, meaning, rfl, Selector.select?_eq_none_iff.1 selected,
      rfl, rfl⟩

end

/-! ## Where a run stops -/

/-- The reading refuses the lexeme at the place, or the end of the text behind all of them. -/
inductive Stops : Reading → List Lexeme → Nat → ReadError → Prop where
  | here {reading : Reading} {lexeme : Lexeme} {rest : List Lexeme} {error : ReadError} :
      reading.step lexeme = .error error → Stops reading (lexeme :: rest) 0 error
  | later {reading next : Reading} {lexeme : Lexeme} {rest : List Lexeme} {place : Nat}
      {error : ReadError} : reading.step lexeme = .ok next → Stops next rest place error →
        Stops reading (lexeme :: rest) (place + 1) error
  | ending {reading : Reading} {error : ReadError} :
      reading.finish = .error error → Stops reading [] 0 error

/-- Reading fails if it stops somewhere. -/
theorem stops_iff {reading : Reading} {lexemes : List Lexeme} {error : ReadError} :
    (lexemes.foldlM Reading.step reading >>= Reading.finish) = .error error ↔
      ∃ place, Stops reading lexemes place error := by
  induction lexemes generalizing reading with
  | nil =>
    constructor
    · intro failed
      exact ⟨0, .ending failed⟩
    · rintro ⟨_, stops⟩
      cases stops with
      | ending failed => exact failed
  | cons lexeme rest ih =>
    rw [List.foldlM_cons]
    cases stepped : reading.step lexeme with
    | error other =>
      constructor
      · intro failed
        cases failed
        exact ⟨0, .here stepped⟩
      · rintro ⟨_, stops⟩
        cases stops with
        | here failed =>
          cases stepped.symm.trans failed
          rfl
        | later went _ =>
          rw [stepped] at went
          cases went
    | ok next =>
      constructor
      · intro failed
        obtain ⟨place, stops⟩ := ih.1 failed
        exact ⟨place + 1, .later stepped stops⟩
      · rintro ⟨_, stops⟩
        cases stops with
        | here failed =>
          rw [stepped] at failed
          cases failed
        | later went stops =>
          rw [stepped] at went
          cases went
          exact ih.2 ⟨_, stops⟩

/-- A run stops at one place. -/
theorem Stops.unique {reading : Reading} {lexemes : List Lexeme} {place other : Nat}
    {error error' : ReadError} (h : Stops reading lexemes place error)
    (h' : Stops reading lexemes other error') : place = other := by
  induction h generalizing other with
  | here failed =>
    cases h' with
    | here => rfl
    | later went =>
      rw [failed] at went
      cases went
  | later went _ ih =>
    cases h' with
    | here failed =>
      rw [went] at failed
      cases failed
    | later went' stops =>
      rw [went] at went'
      cases went'
      rw [ih stops]
  | ending _ =>
    cases h' with
    | ending => rfl

/-- A run comes to a place unless it stops before it. -/
theorem reads_or_stops {reading : Reading} (front rest : List Lexeme) :
    (∃ next, front.foldlM Reading.step reading = .ok next ∧ ∀ {place error},
        Stops next rest place error → Stops reading (front ++ rest) (front.length + place) error) ∨
      ∃ place error, place < front.length ∧ Stops reading (front ++ rest) place error := by
  induction front generalizing reading with
  | nil =>
    refine .inl ⟨reading, rfl, ?_⟩
    intro place error stops
    rwa [List.length_nil, Nat.zero_add]
  | cons lexeme front ih =>
    cases stepped : reading.step lexeme with
    | error error => exact .inr ⟨0, error, Nat.succ_pos _, .here stepped⟩
    | ok next =>
      rcases @ih next with ⟨last, ran, further⟩ | ⟨place, error, before, stops⟩
      · refine .inl ⟨last, ?_, ?_⟩
        · rw [foldlM_step_cons _ stepped, ran]
        · intro place error stops
          rw [List.length_cons, Nat.succ_add_eq_add_succ]
          exact .later stepped (further stops)
      · exact .inr ⟨place + 1, error, Nat.succ_lt_succ before, .later stepped stops⟩

/-! ## Offences -/

namespace Machine

variable {machine : Machine} {heap : Heap} {state : State} {text : List Char} {place : Nat}
  {error : ReadError} {phrase : Phrase} {type : BuiltinType}

/-- A phrase evaluates to a value of the type. -/
def Yields (machine : Machine) (state : State) (phrase : Phrase) (type : BuiltinType) : Prop :=
  ∃ ref later, machine.evaluate phrase state = .ok (some ref) later ∧
    (later.heap.get ref).payload.kind = .builtin type

theorem kind_of_spells {literal : Literal} {ref : Ref} (h : machine.Spells heap literal ref) :
    (heap.get ref).payload.kind = .builtin literal.type := by
  cases literal with
  | none | bool =>
    rw [h.2.get]
    rfl
  | array items =>
    obtain ⟨refs, _, held⟩ := h
    rw [held.get]
    rfl
  | _ =>
    rw [Heap.Holds.get h]
    rfl

theorem yields_iff (shares : machine.Shares state.heap) :
    machine.Yields state phrase type ↔ ∃ value, phrase.value? = some value ∧ value.type = type := by
  obtain ⟨result, later, ran, _, evaluated⟩ := gives_evaluate phrase shares
  rcases evaluated.cases with ⟨denoted, rfl⟩ | ⟨literal, ref, denoted, rfl, spelled⟩
  · refine iff_of_false ?_ ?_
    · rintro ⟨ref, last, ran', _⟩
      rw [ran] at ran'
      cases ran'
    · rintro ⟨value, meaning, _⟩
      rw [denoted] at meaning
      cases meaning
  · have kind := kind_of_spells spelled
    constructor
    · rintro ⟨ref', last, ran', kind'⟩
      rw [ran] at ran'
      cases ran'
      rw [kind] at kind'
      exact ⟨literal, denoted, by cases kind'; rfl⟩
    · rintro ⟨value, meaning, rfl⟩
      rw [denoted] at meaning
      cases meaning
      exact ⟨ref, later, ran, kind⟩

/-- What is wrong with a text, and the number of lexemes before the one that shows it. -/
inductive Offence (machine : Machine) (state : State) (text : List Char) :
    Nat → ReadError → Prop where
  /-- A beginning of a sentence and a lexeme that does not continue it. -/
  | unexpected {front rest : List Lexeme} {lexeme : Lexeme} {found : List Char} :
      Lexeme.scan text = front ++ lexeme :: rest → Viable (front.map Lexeme.token) →
        ¬Viable (front.map Lexeme.token ++ [lexeme.token]) →
          Lexeme.Covers text found lexeme.start lexeme.stop →
            Offence machine state text front.length
              (.unexpected found lexeme.start lexeme.stop)
  /-- A beginning of a sentence that is none. -/
  | endOfInput : Viable ((Lexeme.scan text).map Lexeme.token) →
      ¬Sentence ((Lexeme.scan text).map Lexeme.token) →
        Offence machine state text (Lexeme.scan text).length .endOfInput
  /-- An index or a slice of a value that has no elements, from its bracket to its bracket. -/
  | notIndexable {front rest : List Lexeme} {opening closing : Lexeme} {phrase : Phrase}
      {type : BuiltinType} :
      Lexeme.scan text = front ++ closing :: rest → Selects front phrase opening closing →
        machine.Yields state phrase type → type ∈ BuiltinType.scalars →
          Offence machine state text front.length
            (.notIndexable type opening.start closing.stop)

/-- A run that comes to the place of an offence stops there. -/
theorem Offence.stops (shares : machine.Shares state.heap)
    (h : machine.Offence state text place error) :
    ∃ front rest, Lexeme.scan text = front ++ rest ∧ front.length = place ∧
      ∀ {reading}, front.foldlM Reading.step .initial = .ok reading →
        Stops reading rest 0 error := by
  cases h with
  | @unexpected front rest lexeme found spelled viable stuck covers =>
    refine ⟨front, lexeme :: rest, spelled, rfl, ?_⟩
    intro reading reads
    have mem : lexeme ∈ Lexeme.scan text := by
      rw [spelled]
      exact List.mem_append_right front (.head rest)
    have same : found = lexeme.text := covers.unique (Lexeme.covers_of_mem_scan mem)
    rw [same]
    exact .here ((step_unexpected_iff reads).2 stuck)
  | endOfInput viable none =>
    refine ⟨Lexeme.scan text, [], (List.append_nil _).symm, rfl, ?_⟩
    intro reading reads
    cases finished : reading.finish with
    | error error =>
      rw [Reading.finish_error finished] at finished
      exact .ending finished
    | ok values =>
      refine absurd ?_ none
      have accepted : Literal.ofLexemes (Lexeme.scan text) = .ok values := by
        unfold Literal.ofLexemes
        rw [reads]
        exact finished
      obtain ⟨phrases, derived, _⟩ := ofLexemes_eq_ok_iff.1 accepted
      exact ⟨phrases, derived⟩
  | @notIndexable front rest opening closing phrase type spelled selects yields scalar =>
    refine ⟨front, closing :: rest, spelled, rfl, ?_⟩
    intro reading reads
    obtain ⟨value, meaning, rfl⟩ := (yields_iff shares).1 yields
    exact .here (step_of_selects_scalar reads selects meaning scalar)

/-- Where a run stops there is an offence. -/
theorem offence_of_stops (shares : machine.Shares state.heap) {front rest : List Lexeme}
    {reading : Reading} (spelled : Lexeme.scan text = front ++ rest)
    (reads : front.foldlM Reading.step .initial = .ok reading) (h : Stops reading rest place error) :
    machine.Offence state text (front.length + place) error := by
  induction h generalizing front with
  | @here reading lexeme rest error failed =>
    rw [Nat.add_zero]
    have mem : lexeme ∈ Lexeme.scan text := by
      rw [spelled]
      exact List.mem_append_right front (.head rest)
    rcases Reading.step_error failed with rfl | ⟨type, start, rfl⟩
    · exact .unexpected spelled (explains_of_reads reads).viable
        ((step_unexpected_iff reads).1 failed) (Lexeme.covers_of_mem_scan mem)
    · obtain ⟨phrase, value, opening, selects, meaning, same, scalar, rfl, _⟩ :=
        selects_of_notIndexable reads failed
      exact .notIndexable spelled selects ((yields_iff shares).2 ⟨value, meaning, same⟩) scalar
  | @later reading next lexeme rest place error went _ ih =>
    have reads' : (front ++ [lexeme]).foldlM Reading.step .initial = .ok next := by
      rw [List.foldlM_append, reads]
      show [lexeme].foldlM Reading.step reading = _
      rw [foldlM_step_singleton, went]
    have further := ih (by rw [spelled, List.append_cons]) reads'
    rw [List.length_append, List.length_singleton, Nat.add_assoc, Nat.add_comm 1] at further
    exact further
  | @ending reading error failed =>
    rw [List.append_nil] at spelled
    subst spelled
    rw [Reading.finish_error failed]
    refine .endOfInput (explains_of_reads reads).viable ?_
    -- A whole sentence is read to its end, where the reading may finish.
    rintro ⟨phrases, derived⟩
    have meets := meets_of_derives derived (Lexeme.scan text) .initial rfl rfl
    rw [reads] at meets
    cases denoted : Phrase.values? phrases with
    | none =>
      rw [denoted] at meets
      obtain ⟨_, _, _, same⟩ := meets
      cases same
    | some values =>
      rw [denoted] at meets
      obtain ⟨_, same, level, _, _, gathered⟩ := meets
      cases same
      rw [Reading.finish_of_gathered gathered level] at failed
      cases failed

/-- The text is refused with the first offence. -/
theorem read_eq_error_iff (shares : machine.Shares state.heap) :
    Literal.read text = .error error ↔ ∃ place, machine.Offence state text place error ∧
      ∀ other error', machine.Offence state text other error' → place ≤ other := by
  have stops : Literal.read text = .error error ↔
      ∃ place, Stops .initial (Lexeme.scan text) place error := stops_iff
  have comes {place : Nat} {error : ReadError} (h : machine.Offence state text place error) :
      Stops .initial (Lexeme.scan text) place error ∨
        ∃ earlier error', earlier < place ∧ Stops .initial (Lexeme.scan text) earlier error' := by
    obtain ⟨front, rest, spelled, rfl, here⟩ := h.stops shares
    rw [spelled]
    rcases @reads_or_stops .initial front rest with ⟨reading, reads, further⟩ | before
    · exact .inl (further (here reads))
    · exact .inr before
  have blamed {place : Nat} {error : ReadError} (h : Stops .initial (Lexeme.scan text) place error) :
      machine.Offence state text place error := by
    have spelled : Lexeme.scan text = [] ++ Lexeme.scan text := rfl
    have offence := offence_of_stops shares spelled rfl h
    rwa [List.length_nil, Nat.zero_add] at offence
  rw [stops]
  constructor
  · rintro ⟨place, stopped⟩
    refine ⟨place, blamed stopped, ?_⟩
    intro other error' offence
    rcases comes offence with stopped' | ⟨earlier, _, before, stopped'⟩
    · exact Nat.le_of_eq (stopped.unique stopped')
    · rw [stopped.unique stopped']
      exact Nat.le_of_lt before
  · rintro ⟨place, offence, first⟩
    rcases comes offence with stopped | ⟨earlier, error', before, stopped⟩
    · exact ⟨place, stopped⟩
    · have later := first earlier error' (blamed stopped)
      omega

/-- **Reading stops at the first offence and reports it.** Reading always ends. It ends with an
error exactly if something is wrong with the text: a lexeme that continues no beginning of a
sentence, the end of the text within a sentence, or an index or a slice of a value without elements.
The error is the offence of which the lexeme, or the end, comes first. -/
theorem readValues_refusal (live : machine.Live state) (text : List Char) :
    (∃ outcome after, machine.readValues text state = .ok outcome after) ∧
    ∀ error, (∃ after, machine.readValues text state = .ok (.error error) after) ↔
      ∃ place, machine.Offence state text place error ∧
        ∀ other error', machine.Offence state text other error' → place ≤ other := by
  constructor
  · cases spelled : Literal.read text with
    | ok literals =>
      obtain ⟨values, after, ran, _⟩ := readValues_of_read live.shares spelled
      exact ⟨.ok values, after, ran⟩
    | error error =>
      refine ⟨.error error, state, ?_⟩
      unfold readValues
      rw [spelled]
      rfl
  · intro error
    rw [← read_eq_error_iff live.shares]
    unfold readValues
    cases spelled : Literal.read text with
    | ok literals =>
      obtain ⟨values, later, ran, _, _⟩ := gives_buildAll literals live.shares
      refine iff_of_false ?_ nofun
      rintro ⟨after, failed⟩
      dsimp only at failed
      rw [Exec.bind_ok ran] at failed
      cases failed
    | error other =>
      constructor
      · rintro ⟨after, failed⟩
        cases failed
        rfl
      · intro same
        cases same
        exact ⟨state, rfl⟩

/-- An index of an integer, before a lexeme that is unexpected. -/
theorem readValues_refusal_scalar : bare.Live bareState ∧
    ∃ place, bare.Offence bareState "1, 5[0] 2".toList place (.notIndexable .int 4 7) ∧
      ∀ other error', bare.Offence bareState "1, 5[0] 2".toList other error' → place ≤ other := by
  have live := live_of_assembled assembled_bare
  have scanned : Lexeme.scan "1, 5[0] 2".toList =
      [⟨.int 1, 0, ['1']⟩, ⟨.comma, 1, [',']⟩, ⟨.int 5, 3, ['5']⟩, ⟨.openBracket, 4, ['[']⟩,
        ⟨.int 0, 5, ['0']⟩, ⟨.closeBracket, 6, [']']⟩, ⟨.int 2, 8, ['2']⟩] := by decide +kernel
  have refused : bare.readValues "1, 5[0] 2".toList bareState =
      .ok (.error (.notIndexable .int 4 7)) bareState := by
    unfold readValues Literal.read
    rw [scanned]
    rfl
  exact ⟨live, ((readValues_refusal live _).2 _).1 ⟨_, refused⟩⟩

end Machine

end BoxedValues
