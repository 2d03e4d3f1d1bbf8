import BoxedValues.Literal.Reading

/-!
# The grammar of literal texts

What a literal text may look like, and what it says, without a word about how it is read.

* `Phrase` is what one value looks like, and `Phrase.value?` what it denotes, if no index and no
  slice is applied to a scalar;
* `Derives` says which tokens spell which phrases, with one constructor for each production.
-/

set_option autoImplicit false

namespace BoxedValues

/-- A literal with its indexes and slices. -/
inductive Phrase where
  | none
  | bool (value : Bool)
  | int (value : Int64)
  | float (value : Double)
  | string (text : List Char)
  | list (items : List Phrase)
  | index (target : Phrase) (position : Int64)
  | slice (target : Phrase) (first last : Option Int64)

namespace Phrase

mutual

/-- What a phrase denotes, if it makes sense. -/
def value? : Phrase → Option Literal
  | .none => some .none
  | .bool value => some (.bool value)
  | .int value => some (.int value)
  | .float value => some (.float value)
  | .string text => some (.string (Utf8.encode text))
  | .list items => (values? items).map .array
  | .index target position => target.value?.bind (·.get? position)
  | .slice target first last =>
    target.value?.bind (·.slice? (first.getD 0) (last.getD Int64.maxValue))

/-- What phrases denote in order, if all of them make sense. -/
def values? : List Phrase → Option (List Literal)
  | [] => some []
  | phrase :: rest => phrase.value?.bind fun value => (values? rest).map (value :: ·)

end

theorem values?_nil : values? [] = some [] := rfl

theorem values?_cons (phrase : Phrase) (rest : List Phrase) :
    values? (phrase :: rest) = phrase.value?.bind fun value => (values? rest).map (value :: ·) := by
  rw [values?]

theorem values?_singleton (phrase : Phrase) : values? [phrase] = phrase.value?.map ([·]) := by
  rw [values?_cons, values?_nil]
  cases phrase.value? <;> rfl

theorem values?_append (phrases others : List Phrase) :
    values? (phrases ++ others) =
      (values? phrases).bind fun values => (values? others).map (values ++ ·) := by
  induction phrases with
  | nil => simp [values?_nil]
  | cons phrase rest ih =>
    rw [List.cons_append, values?_cons, values?_cons, ih]
    cases phrase.value? with
    | none => rfl
    | some value =>
      cases values? rest with
      | none => rfl
      | some values => simp [Function.comp_def]

end Phrase

/-- The parts of a literal text that have rules of their own. -/
inductive Nonterminal where
  /-- A list of values between commas. -/
  | values
  /-- What may come after the first of them. -/
  | rest
  /-- A value with its indexes and slices. -/
  | value
  /-- A value without any. -/
  | atom

/-- The tokens of an endpoint that may be left out. -/
def Token.endpoint : Option Int64 → List Token
  | some position => [.int position]
  | .none => []

/-- The productions of the grammar, with the phrases that they spell. -/
inductive Derives : Nonterminal → List Phrase → List Token → Prop where
  /-- `atom := None` -/
  | none : Derives .atom [.none] [.none]
  /-- `atom := true` -/
  | true : Derives .atom [.bool true] [.true]
  /-- `atom := false` -/
  | false : Derives .atom [.bool false] [.false]
  /-- `atom := INT` -/
  | int (value : Int64) : Derives .atom [.int value] [.int value]
  /-- `atom := FLOAT` -/
  | float (value : Double) : Derives .atom [.float value] [.float value]
  /-- `atom := STRING` -/
  | string (text : List Char) : Derives .atom [.string text] [.string text]
  /-- `atom := '[' values ']'` -/
  | list {items : List Phrase} {tokens : List Token} : Derives .values items tokens →
      Derives .atom [.list items] (.openBracket :: tokens ++ [.closeBracket])
  /-- `value := atom` -/
  | atom {phrases : List Phrase} {tokens : List Token} : Derives .atom phrases tokens →
      Derives .value phrases tokens
  /-- `value := value '[' INT ']'` -/
  | index {target : Phrase} {tokens : List Token} (position : Int64) :
      Derives .value [target] tokens → Derives .value [.index target position]
        (tokens ++ [.openBracket, .int position, .closeBracket])
  /-- `value := value '[' INT? ':' INT? ']'` -/
  | slice {target : Phrase} {tokens : List Token} (first last : Option Int64) :
      Derives .value [target] tokens → Derives .value [.slice target first last]
        (tokens ++ .openBracket :: Token.endpoint first ++ .colon :: Token.endpoint last ++
          [.closeBracket])
  /-- `values := ` -/
  | empty : Derives .values [] []
  /-- `values := value rest` -/
  | values {phrases others : List Phrase} {tokens further : List Token} :
      Derives .value phrases tokens → Derives .rest others further →
        Derives .values (phrases ++ others) (tokens ++ further)
  /-- `rest := ` -/
  | done : Derives .rest [] []
  /-- `rest := ','` -/
  | comma : Derives .rest [] [.comma]
  /-- `rest := ',' value rest` -/
  | next {phrases others : List Phrase} {tokens further : List Token} :
      Derives .value phrases tokens → Derives .rest others further →
        Derives .rest (phrases ++ others) (.comma :: tokens ++ further)

/-- An index or a slice, whatever it is applied to. -/
inductive Selector where
  | index (position : Int64)
  | slice (first last : Option Int64)

namespace Selector

/-- The tokens of a selector between its brackets. -/
def tokens : Selector → List Token
  | index position => [.int position]
  | slice first last => Token.endpoint first ++ .colon :: Token.endpoint last

/-- A phrase with a selector behind it. -/
def applied (target : Phrase) : Selector → Phrase
  | index position => .index target position
  | slice first last => .slice target first last

/-- What a selector takes out of a value, if that has elements. -/
def select? (target : Literal) : Selector → Option Literal
  | index position => target.get? position
  | slice first last => target.slice? (first.getD 0) (last.getD Int64.maxValue)

variable {selector : Selector} {target : Phrase} {tokens : List Token}

theorem value?_applied : (selector.applied target).value? = target.value?.bind (selector.select? ·) := by
  cases selector with
  | index position => rw [applied, Phrase.value?]; rfl
  | slice first last => rw [applied, Phrase.value?]; rfl

/-- A selector behind a value is derived, whatever the value. -/
theorem derives_applied (h : Derives .value [target] tokens) :
    Derives .value [selector.applied target]
      (tokens ++ .openBracket :: selector.tokens ++ [.closeBracket]) := by
  cases selector with
  | index position =>
    rw [List.append_assoc]
    exact .index position h
  | slice first last =>
    have derived := Derives.slice first last h
    rw [Selector.tokens, ← List.cons_append, ← List.append_assoc]
    exact derived

end Selector

/-- No error token is part of a literal text. -/
theorem Derives.error_notMem {symbol : Nonterminal} {phrases : List Phrase} {tokens : List Token}
    (h : Derives symbol phrases tokens) : Token.error ∉ tokens := by
  have endpoint (position : Option Int64) : Token.error ∉ Token.endpoint position := by
    cases position <;> simp [Token.endpoint]
  induction h with
  | slice first last _ ih => simp [ih, endpoint]
  | _ => simp_all

end BoxedValues
