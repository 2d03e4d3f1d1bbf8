import BoxedValues.Machine.Arguments
import BoxedValues.Machine.Engine

/-!
# The methods of `Array`

Reference model of `array_length`, `array_is_empty`, `array_push`, `array_concat`, `array_join`,
`array_contains`, `array_dedupe` and `array_enumerate`.

A method that goes through the elements takes those that the array has when it begins, whatever the
elements' own methods do to the array meanwhile. New arrays share the elements.
-/

set_option autoImplicit false

namespace BoxedValues.Engine

variable (engine : Engine)

/-- The elements that remain of `items` when those that equal an earlier one go, after the elements
`kept` with their hashes. Only elements with one hash are compared. -/
def dedupe (kept : List (Int64 × Ref)) : List Ref → Exec (List Ref)
  | [] => return kept.map (·.2)
  | item :: rest => do
    let hash ← engine.hashOf item
    let rivals := (kept.filter fun entry => entry.1 == hash).map (·.2)
    if ← engine.equalsAny item rivals then dedupe kept rest
    else dedupe (kept ++ [(hash, item)]) rest

/-- A new array of an element and its index. -/
def indexed (entry : Ref × Nat) : Exec Ref := do
  let index ← engine.machine.newInt (.ofNat entry.2)
  engine.machine.newArray [entry.1, index]

/-- The octets of texts with a separator between any two; nothing between them without one. -/
def joined (separator : Option Bytes) (texts : List Bytes) : Bytes :=
  (texts.intersperse (separator.getD [])).flatten

/-- Run a method of `Array`. -/
def runArray (method : ArrayMethod) (args : List Ref) : Exec Ref := do
  let buffer ← Arguments.receiver .array args
  let items := buffer.live
  match method with
  | .length => engine.machine.newInt (.ofNat buffer.length)
  | .isEmpty => return engine.machine.boolValue (buffer.length == 0)
  | .push =>
    engine.machine.push (← Arguments.given args 0) (← Arguments.given args 1)
    return engine.machine.noneValue
  | .concat =>
    let other ← Arguments.required .array args 1
    engine.machine.newArray (items ++ other.live)
  | .join =>
    let separator ← Arguments.optional .string args 1
    engine.machine.newString (joined separator (← engine.texts items))
  | .contains =>
    let target ← Arguments.given args 1
    return engine.machine.boolValue (← engine.equalsAny target items)
  | .dedupe => engine.machine.newArray (← engine.dedupe [] items)
  | .enumerate => engine.machine.newArray (← items.zipIdx.mapM engine.indexed)

end BoxedValues.Engine
