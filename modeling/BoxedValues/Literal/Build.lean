import BoxedValues.Literal.Reading
import BoxedValues.Machine.Values

/-!
# Literals on a heap

Reference model of `read_values`. `Machine.build` makes the value of a literal out of new boxes,
items before the array that holds them. `Machine.readValues` reads a text and builds what it spells.
-/

set_option autoImplicit false

namespace BoxedValues.Machine

variable (machine : Machine)

mutual

/-- A new value for a literal; the shared values stand for `None` and the truth values. -/
def build : Literal → Exec Ref
  | .none => return machine.noneValue
  | .bool value => return machine.boolValue value
  | .int value => machine.newInt value
  | .float value => machine.newFloat value
  | .string bytes => machine.newString bytes
  | .array items => do machine.newArray (← buildAll items)

/-- New values for literals in order. -/
def buildAll : List Literal → Exec (List Ref)
  | [] => return []
  | literal :: rest => do
    let value ← build literal
    return value :: (← buildAll rest)

end

/-- The values that a text spells, or why it spells none. -/
def readValues (text : List Char) : Exec (Except ReadError (List Ref)) :=
  match Literal.read text with
  | .ok literals => return .ok (← machine.buildAll literals)
  | .error error => return .error error

end BoxedValues.Machine
