import BoxedValues.Proofs.Literal.Accepting
import BoxedValues.Proofs.Literal.Building

/-!
# What literal texts denote

A phrase can be evaluated on a machine step by step (`Machine.evaluate`): scalars become boxes,
lists become arrays of their items, indexes and slices are looked up in the value that they are
applied to. A text is read quite differently, all at once and before any box is made.

* `gives_evaluate`: evaluating a phrase makes a copy of the literal that it denotes;
* `readValues_meaning`: **a text is read exactly if the grammar derives its tokens from phrases that
  make sense, and then the values are those of the phrases**.
-/

set_option autoImplicit false

namespace BoxedValues

/-- The number of elements of a string or an array; scalars and records have none. -/
def Payload.count? : Payload → Option Nat
  | .string bytes => some bytes.length
  | .array buffer => some buffer.live.length
  | _ => .none

namespace Literal

/-- The number of elements of a literal string or array. -/
def count? : Literal → Option Nat
  | .string bytes => some bytes.length
  | .array items => some items.length
  | _ => .none

/-- A slice without an end reaches to the end of the container. -/
theorem slice?_getD_last {literal : Literal} {count : Nat} (h : literal.count? = some count)
    (start : Int64) (stop : Option Int64) :
    literal.slice? start (stop.getD Int64.maxValue) =
      literal.slice? start (stop.getD (Position.last count)) := by
  cases stop with
  | some stop => rfl
  | none =>
    cases literal with
    | string bytes =>
      cases h
      simp only [slice?, Option.getD_none, Position.slice_maxValue]
    | array items =>
      cases h
      simp only [slice?, Option.getD_none, Position.slice_maxValue]
    | _ => cases h

end Literal

namespace Machine

mutual

/-- Evaluate a phrase on a machine; there is no value if an index or a slice is applied to a value
without elements. -/
def evaluate (machine : Machine) : Phrase → Exec (Option Ref)
  | .none => return some machine.noneValue
  | .bool value => return some (machine.boolValue value)
  | .int value => return some (← machine.newInt value)
  | .float value => return some (← machine.newFloat value)
  | .string text => return some (← machine.newText text)
  | .list items => do
    match ← evaluateAll machine items with
    | some values => return some (← machine.newArray values)
    | none => return none
  | .index target position => do
    match ← evaluate machine target with
    | none => return none
    | some value =>
      match (← Exec.payload value).count? with
      | some _ => return some (← machine.element value position)
      | none => return none
  | .slice target first last => do
    match ← evaluate machine target with
    | none => return none
    | some value =>
      match (← Exec.payload value).count? with
      | some count =>
        return some (← machine.part value (first.getD 0) (last.getD (Position.last count)))
      | none => return none

/-- Evaluate phrases in order. -/
def evaluateAll (machine : Machine) : List Phrase → Exec (Option (List Ref))
  | [] => return some []
  | phrase :: rest => do
    match ← evaluate machine phrase with
    | none => return none
    | some value =>
      match ← evaluateAll machine rest with
      | some values => return some (value :: values)
      | none => return none

end

variable {machine : Machine} {heap : Heap} {state : State} {literal : Literal} {value : Ref}

/-- The result of evaluating a phrase is a copy of what it denotes; there is none if it denotes
nothing. -/
def Evaluates (machine : Machine) (heap : Heap) : Option Literal → Option Ref → Prop
  | some literal, some ref => machine.Spells heap literal ref
  | none, none => True
  | _, _ => False

/-- The same for phrases in order. -/
def EvaluatesAll (machine : Machine) (heap : Heap) :
    Option (List Literal) → Option (List Ref) → Prop
  | some literals, some refs => machine.SpellsAll heap literals refs
  | none, none => True
  | _, _ => False

theorem Evaluates.cases {denoted : Option Literal} {result : Option Ref}
    (h : machine.Evaluates heap denoted result) : (denoted = none ∧ result = none) ∨
      ∃ literal ref, denoted = some literal ∧ result = some ref ∧ machine.Spells heap literal ref := by
  cases denoted with
  | none =>
    cases result with
    | none => exact .inl ⟨rfl, rfl⟩
    | some ref => exact h.elim
  | some literal =>
    cases result with
    | none => exact h.elim
    | some ref => exact .inr ⟨literal, ref, rfl, rfl, h⟩

theorem EvaluatesAll.cases {denoted : Option (List Literal)} {result : Option (List Ref)}
    (h : machine.EvaluatesAll heap denoted result) : (denoted = none ∧ result = none) ∨
      ∃ literals refs, denoted = some literals ∧ result = some refs ∧
        machine.SpellsAll heap literals refs := by
  cases denoted with
  | none =>
    cases result with
    | none => exact .inl ⟨rfl, rfl⟩
    | some refs => exact h.elim
  | some literals =>
    cases result with
    | none => exact h.elim
    | some refs => exact .inr ⟨literals, refs, rfl, rfl, h⟩

theorem gives_some {action : Exec Ref}
    (h : action.Gives state fun ref heap => machine.Spells heap literal ref) :
    Exec.Gives (do return some (← action)) state fun result heap =>
      machine.Evaluates heap (some literal) result :=
  h.bind fun _ _ _ spelled => Exec.gives_pure spelled

/-- A copy has as many elements as the literal. -/
theorem count?_of_spells (spelled : machine.Spells heap literal value) :
    (heap.get value).payload.count? = literal.count? := by
  cases literal with
  | none =>
    rw [spelled.2.get]
    rfl
  | bool flag =>
    rw [spelled.2.get]
    rfl
  | array items =>
    obtain ⟨refs, all, held⟩ := spelled
    rw [held.get]
    simp only [Payload.count?, Buffer.live_ofItems, Literal.count?, (spellsAll_iff.1 all).length_eq]
  | _ =>
    rw [Heap.Holds.get spelled]
    rfl

/-- An index of a copy. -/
theorem gives_index (shares : machine.Shares state.heap)
    (spelled : machine.Spells state.heap literal value) (position : Int64) :
    Exec.Gives (do
        match (← Exec.payload value).count? with
        | some _ => return some (← machine.element value position)
        | none => return none) state fun result heap =>
      machine.Evaluates heap (literal.get? position) result := by
  refine Exec.gives_bind_ok (Exec.payload_ok value state) ?_
  rw [count?_of_spells spelled]
  cases literal with
  | string bytes => exact gives_some (gives_element spelled shares rfl)
  | array items => exact gives_some (gives_element spelled shares rfl)
  | _ => exact Exec.gives_pure trivial

/-- A slice of a copy. -/
theorem gives_slice (spelled : machine.Spells state.heap literal value)
    (first last : Option Int64) :
    Exec.Gives (do
        match (← Exec.payload value).count? with
        | some count =>
          return some (← machine.part value (first.getD 0) (last.getD (Position.last count)))
        | none => return none) state fun result heap =>
      machine.Evaluates heap (literal.slice? (first.getD 0) (last.getD Int64.maxValue)) result := by
  refine Exec.gives_bind_ok (Exec.payload_ok value state) ?_
  rw [count?_of_spells spelled]
  cases counted : literal.count? with
  | none =>
    cases literal with
    | string bytes => cases counted
    | array items => cases counted
    | _ => exact Exec.gives_pure trivial
  | some count =>
    rw [Literal.slice?_getD_last counted]
    cases literal with
    | string bytes => exact gives_some (gives_part spelled rfl)
    | array items => exact gives_some (gives_part spelled rfl)
    | _ => cases counted

mutual

/-- **Evaluating a phrase makes a copy of what it denotes.** -/
theorem gives_evaluate (phrase : Phrase) {state : State} (shares : machine.Shares state.heap) :
    (machine.evaluate phrase).Gives state fun result heap =>
      machine.Evaluates heap phrase.value? result := by
  match phrase with
  | .none => exact Exec.gives_pure ⟨rfl, shares.none⟩
  | .bool value => exact Exec.gives_pure ⟨rfl, shares.bool value⟩
  | .int value => exact gives_some (gives_alloc_spells fun held => held)
  | .float value => exact gives_some (gives_alloc_spells fun held => held)
  | .string bytes => exact gives_some (gives_alloc_spells fun held => held)
  | .list items =>
    rw [Phrase.value?]
    apply (gives_evaluateAll items shares).bind
    intro result after _ evaluated
    rcases evaluated.cases with ⟨denoted, rfl⟩ | ⟨literals, refs, denoted, rfl, spelled⟩
    · rw [denoted]
      exact Exec.gives_pure trivial
    · rw [denoted]
      exact gives_some (gives_newArray spelled)
  | .index target position =>
    rw [Phrase.value?]
    apply (gives_evaluate target shares).bind
    intro result after grows evaluated
    rcases evaluated.cases with ⟨denoted, rfl⟩ | ⟨literal, ref, denoted, rfl, spelled⟩
    · rw [denoted]
      exact Exec.gives_pure trivial
    · rw [denoted]
      exact gives_index (shares.persists grows.heap.persists) spelled position
  | .slice target first last =>
    rw [Phrase.value?]
    apply (gives_evaluate target shares).bind
    intro result after _ evaluated
    rcases evaluated.cases with ⟨denoted, rfl⟩ | ⟨literal, ref, denoted, rfl, spelled⟩
    · rw [denoted]
      exact Exec.gives_pure trivial
    · rw [denoted]
      exact gives_slice spelled first last

theorem gives_evaluateAll (phrases : List Phrase) {state : State}
    (shares : machine.Shares state.heap) :
    (machine.evaluateAll phrases).Gives state fun result heap =>
      machine.EvaluatesAll heap (Phrase.values? phrases) result := by
  match phrases with
  | [] => exact Exec.gives_pure rfl
  | phrase :: rest =>
    rw [Phrase.values?_cons]
    apply (gives_evaluate phrase shares).bind
    intro result middle grows evaluated
    rcases evaluated.cases with ⟨denoted, rfl⟩ | ⟨literal, ref, denoted, rfl, spelled⟩
    · rw [denoted]
      exact Exec.gives_pure trivial
    · rw [denoted]
      have further := gives_evaluateAll rest (shares.persists grows.heap.persists)
      apply further.growing.bind
      rintro result after _ ⟨more, evaluated⟩
      rcases evaluated.cases with ⟨denoted, rfl⟩ | ⟨literals, refs, denoted, rfl, spelledAll⟩
      · rw [denoted]
        exact Exec.gives_pure trivial
      · rw [denoted]
        exact Exec.gives_pure ⟨ref, refs, rfl, Spells.extends literal spelled more, spelledAll⟩

end

/-! ## Reading texts -/

theorem evaluateAll_eq_some_iff (shares : machine.Shares state.heap) {phrases : List Phrase} :
    (∃ refs later, machine.evaluateAll phrases state = .ok (some refs) later) ↔
      ∃ literals, Phrase.values? phrases = some literals := by
  obtain ⟨result, after, ran, _, evaluated⟩ := gives_evaluateAll phrases shares
  rcases evaluated.cases with ⟨denoted, rfl⟩ | ⟨literals, refs, denoted, rfl, _⟩
  · rw [denoted, ran]
    exact iff_of_false nofun nofun
  · exact iff_of_true ⟨refs, after, ran⟩ ⟨literals, denoted⟩

/-- A text whose lexemes spell literals is read as copies of them. -/
theorem readValues_of_read (shares : machine.Shares state.heap) {text : List Char}
    {literals : List Literal} (h : Literal.read text = .ok literals) :
    ∃ values after, machine.readValues text state = .ok (.ok values) after ∧
      machine.SpellsAll after.heap literals values := by
  obtain ⟨values, after, ran, _, spelled⟩ := gives_buildAll literals shares
  refine ⟨values, after, ?_, spelled⟩
  unfold readValues
  rw [h]
  exact Exec.bind_ok ran

theorem read_of_readValues {text : List Char} {values : List Ref} {after : State}
    (h : machine.readValues text state = .ok (.ok values) after) :
    ∃ literals, Literal.read text = .ok literals := by
  unfold readValues at h
  cases spelled : Literal.read text with
  | ok literals => exact ⟨literals, rfl⟩
  | error error =>
    rw [spelled] at h
    cases h

/-- **Exactly the sentences of the grammar are read, with the right meaning.** A text is read if and
only if none of its tokens is an error and the grammar derives them from phrases that can be
evaluated, which are those without an index or a slice of a scalar. However the tokens are derived,
the values that are read and the values that the phrases evaluate to are copies of the same
literals, in order. -/
theorem readValues_meaning (live : machine.Live state) (text : List Char) :
    ((∃ values after, machine.readValues text state = .ok (.ok values) after) ↔
      Token.error ∉ (Lexeme.scan text).map Lexeme.token ∧
        ∃ phrases, Derives .values phrases ((Lexeme.scan text).map Lexeme.token) ∧
          ∃ refs later, machine.evaluateAll phrases state = .ok (some refs) later) ∧
    ∀ values after phrases, machine.readValues text state = .ok (.ok values) after →
      Derives .values phrases ((Lexeme.scan text).map Lexeme.token) →
        ∃ refs later literals, machine.evaluateAll phrases state = .ok (some refs) later ∧
          machine.SpellsAll later.heap literals refs ∧
            machine.SpellsAll after.heap literals values := by
  constructor
  · constructor
    · rintro ⟨values, after, h⟩
      obtain ⟨literals, accepted⟩ := read_of_readValues h
      obtain ⟨phrases, derived, denotes⟩ := ofLexemes_eq_ok_iff.1 accepted
      exact ⟨derived.error_notMem, phrases, derived,
        (evaluateAll_eq_some_iff live.shares).2 ⟨literals, denotes⟩⟩
    · rintro ⟨_, phrases, derived, evaluated⟩
      obtain ⟨literals, denotes⟩ := (evaluateAll_eq_some_iff live.shares).1 evaluated
      have accepted : Literal.read text = .ok literals := (ofLexemes_of_derives derived).2 denotes
      obtain ⟨values, after, h, _⟩ := readValues_of_read live.shares accepted
      exact ⟨values, after, h⟩
  · intro values after phrases h derived
    obtain ⟨literals, accepted⟩ := read_of_readValues h
    have denotes := (ofLexemes_of_derives derived).1 accepted
    obtain ⟨values', after', h', spelled⟩ := readValues_of_read live.shares accepted
    rw [h] at h'
    cases h'
    obtain ⟨result, later, ran, _, evaluated⟩ := gives_evaluateAll phrases live.shares
    rcases evaluated.cases with ⟨denoted, rfl⟩ | ⟨copied, refs, denoted, rfl, spelled'⟩
    · rw [denotes] at denoted
      cases denoted
    · rw [denotes] at denoted
      cases denoted
      exact ⟨refs, later, literals, ran, spelled', spelled⟩

/-- A list with a comma at its end, and a slice of it. -/
theorem readValues_meaning_slice : bare.Live bareState ∧
    ∃ values after, bare.readValues "[7, true,][-2:]".toList bareState = .ok (.ok values) after := by
  have live := live_of_assembled assembled_bare
  have tokens : (Lexeme.scan "[7, true,][-2:]".toList).map Lexeme.token =
      [.openBracket, .int 7, .comma, .true, .comma, .closeBracket, .openBracket, .int (-2), .colon,
        .closeBracket] := by decide +kernel
  have derived := Derives.values (.slice (some (-2)) none (.atom (.list
    (.values (.atom (.int 7)) (.next (.atom .true) .comma))))) .done
  have evaluated : ∃ refs later, bare.evaluateAll
      [.slice (.list [.int 7, .bool true]) (some (-2)) none] bareState = .ok (some refs) later :=
    ⟨_, _, rfl⟩
  refine ⟨live, (readValues_meaning live _).1.2 ⟨?_, _, ?_, evaluated⟩⟩
  · rw [tokens]
    decide
  · rw [tokens]
    exact derived

end Machine

end BoxedValues
