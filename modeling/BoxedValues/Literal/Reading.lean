import BoxedValues.Literal.Basic
import BoxedValues.Literal.Lexeme

/-!
# Reading literals

Reference model of `Reader`, whose functions `values`, `value`, `atom`, `endpoint` and `postfix`
descend into the text, and of `ParseError` with `unexpected` and `not_indexable`. A literal text is
a list of values between commas, with an optional comma at the end. A value is a keyword, a number,
a string or a list in brackets, followed by any number of indexes `[i]` and slices `[i:j]`, where
`i` and `j` may be left out of a slice.

The lexemes are gone through once. What was read so far is a `Reading`: the unfinished lists,
innermost first, and what may come next (`Phase`). `Reading.step` takes one lexeme, `Reading.finish`
the end of the text.
-/

set_option autoImplicit false

namespace BoxedValues

/-- Why a text is no list of literals. -/
inductive ReadError where
  /-- A lexeme cannot stand where it does. -/
  | unexpected (found : List Char) (start stop : Nat)
  /-- The text ends within a value. -/
  | endOfInput
  /-- A scalar is indexed or sliced. -/
  | notIndexable (type : BuiltinType) (start stop : Nat)
  deriving DecidableEq

/-- The message of an error. -/
def ReadError.message : ReadError → String
  | .unexpected found start stop => s!"unexpected `{String.ofList found}` at {start}..{stop}"
  | .endOfInput => "unexpected end of input"
  | .notIndexable type start stop =>
    s!"cannot index into a value of type {(Kind.builtin type).name} at {start}..{stop}"

/-- What was read of the current item. -/
inductive Phase where
  /-- Nothing: a value may begin or the list may end. -/
  | item
  /-- A value, which may be indexed, or after which the item ends. -/
  | value (value : Literal)
  /-- A value and the bracket that begins an index or a slice. -/
  | bracket (value : Literal) (start : Nat)
  /-- The same with an integer. -/
  | index (value : Literal) (start : Nat) (index : Int64)
  /-- The same with an optional integer and a colon. -/
  | colon (value : Literal) (start : Nat) (first : Option Int64)
  /-- The same with a further integer. -/
  | range (value : Literal) (start : Nat) (first : Option Int64) (last : Int64)

/-- What was read up to some lexeme. -/
structure Reading where
  /-- The items of the lists around the current one, innermost list and newest item first. -/
  outer : List (List Literal)
  /-- The items of the current list, newest first. -/
  items : List Literal
  phase : Phase

namespace Reading

/-- Nothing was read yet. -/
def initial : Reading := ⟨[], [], .item⟩

/-- The complaint about a lexeme that cannot stand where it does. -/
def unexpected {α : Type} (lexeme : Lexeme) : Except ReadError α :=
  .error (.unexpected lexeme.text lexeme.start lexeme.stop)

/-- The same with another phase. -/
def goto (reading : Reading) (phase : Phase) : Except ReadError Reading :=
  .ok { reading with phase }

/-- The current list ends, with the given items, newest first. -/
def close (reading : Reading) (items : List Literal) (lexeme : Lexeme) : Except ReadError Reading :=
  match reading.outer with
  | [] => unexpected lexeme
  | around :: outer => .ok ⟨outer, around, .value (.array items.reverse)⟩

/-- An index or a slice is complete: its value comes next, unless it was applied to a scalar. -/
def select (reading : Reading) (target : Literal) (start : Nat) (result : Option Literal)
    (lexeme : Lexeme) : Except ReadError Reading :=
  match result with
  | some value => reading.goto (.value value)
  | none => .error (.notIndexable target.type start lexeme.stop)

/-- What is read with one more lexeme. -/
def step (reading : Reading) (lexeme : Lexeme) : Except ReadError Reading :=
  match reading.phase, lexeme.token with
  | .item, .none => reading.goto (.value .none)
  | .item, .true => reading.goto (.value (.bool true))
  | .item, .false => reading.goto (.value (.bool false))
  | .item, .int value => reading.goto (.value (.int value))
  | .item, .float value => reading.goto (.value (.float value))
  | .item, .string text => reading.goto (.value (.string (Utf8.encode text)))
  | .item, .openBracket => .ok ⟨reading.items :: reading.outer, [], .item⟩
  | .item, .closeBracket => reading.close reading.items lexeme
  | .value value, .openBracket => reading.goto (.bracket value lexeme.start)
  | .value value, .comma => .ok ⟨reading.outer, value :: reading.items, .item⟩
  | .value value, .closeBracket => reading.close (value :: reading.items) lexeme
  | .bracket value start, .int index => reading.goto (.index value start index)
  | .bracket value start, .colon => reading.goto (.colon value start none)
  | .index value start index, .colon => reading.goto (.colon value start (some index))
  | .index value start index, .closeBracket =>
    reading.select value start (value.get? index) lexeme
  | .colon value start first, .int last => reading.goto (.range value start first last)
  | .colon value start first, .closeBracket =>
    reading.select value start (value.slice? (first.getD 0) Int64.maxValue) lexeme
  | .range value start first last, .closeBracket =>
    reading.select value start (value.slice? (first.getD 0) last) lexeme
  | _, _ => unexpected lexeme

/-- The values of the text if it may end here. -/
def finish (reading : Reading) : Except ReadError (List Literal) :=
  match reading.outer, reading.phase with
  | [], .item => .ok reading.items.reverse
  | [], .value value => .ok (value :: reading.items).reverse
  | _, _ => .error .endOfInput

end Reading

/-- The values that lexemes spell. -/
def Literal.ofLexemes (lexemes : List Lexeme) : Except ReadError (List Literal) := do
  let reading ← lexemes.foldlM Reading.step Reading.initial
  reading.finish

/-- The values that a text spells. -/
def Literal.read (text : List Char) : Except ReadError (List Literal) :=
  Literal.ofLexemes (Lexeme.scan text)

end BoxedValues
