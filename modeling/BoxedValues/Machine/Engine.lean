import BoxedValues.Hash
import BoxedValues.Machine.Values

/-!
# Sending messages to values

Reference model of the dispatch of `Runtime`:

* `Engine.send` is `call_method`, which finds its method with `lookup` and fails with `missing`;
* `Engine.textOf`, `Engine.areEqual` and `Engine.hashOf` are `call_to_string`, `call_eq` and
  `call_hash`, the last with `identity_hash` (`Engine.boxHash`);
* `Engine.printLine` is `println`.

A message is a slot and arguments; the type of the first argument, the receiver, says which method
answers it. The common methods give the text, the equality and the hash of any value. How a method
that was found is run is a parameter here (`Engine.invoke`), so that each of these definitions can
be read on its own; the module that closes the circle passes the machine itself.
-/

set_option autoImplicit false

namespace BoxedValues

/-- A machine with a way to run its methods. -/
structure Engine where
  machine : Machine
  /-- Run a method with the given arguments, the receiver first. -/
  invoke : Method → List Ref → Exec Ref

namespace Engine

variable (engine : Engine)

/-- The entry of a value's type. -/
def entryOf (value : Ref) : Exec Entry := do
  Exec.ofExcept (engine.machine.table.entry (← Exec.typeId value))

/-- Call the method in a slot of the first argument's type. -/
def send (slot : Nat) (args : List Ref) : Exec Ref := do
  match args with
  | [] => Exec.fail (.argumentCount s!"<slot {slot}>" (.atLeast 1) 0)
  | receiver :: _ =>
    let entry ← engine.entryOf receiver
    match entry.method? slot with
    | some method => engine.invoke method args
    | none => Exec.fail (.noMethod entry.name slot)

/-- Call the method in a slot of a given type, whatever the type of the first argument. -/
def sendAs (type : TypeId) (slot : Nat) (args : List Ref) : Exec Ref := do
  let entry ← Exec.ofExcept (engine.machine.table.entry type)
  match entry.method? slot with
  | some method => engine.invoke method args
  | none => Exec.fail (.noMethod entry.name slot)

/-! ## Common methods -/

/-- The text of a value, a `String`. -/
def textOf (value : Ref) : Exec Ref := do
  let entry ← engine.entryOf value
  match entry.common? .toText with
  | none => Exec.fail (.noMethod entry.name CommonMethod.toText.slot)
  | some method =>
    let result ← engine.invoke method [value]
    let box ← Exec.box result
    match box.payload with
    | .string _ => return result
    | _ => Exec.fail (.wrongResult method.name BuiltinType.string.name box.typeId)

/-- Whether two values are equal. A value equals itself, values of different types are different,
and a type without the method compares by identity. -/
def areEqual (first second : Ref) : Exec Bool := do
  if first = second then return true
  if (← Exec.typeId first) ≠ (← Exec.typeId second) then return false
  let entry ← engine.entryOf first
  match entry.common? .equal with
  | none => return false
  | some method =>
    let box ← Exec.box (← engine.invoke method [first, second])
    match box.payload with
    | .bool value => return value
    | _ => Exec.fail (.wrongResult method.name BuiltinType.bool.name box.typeId)

/-- The hash of a box, for types that do not hash their values. -/
def boxHash (value : Ref) : Int64 :=
  Hash.tagged .identity (Hash.wordBytes (.ofNat value.index))

/-- The hash of a value. A type without the method hashes by identity. -/
def hashOf (value : Ref) : Exec Int64 := do
  let entry ← engine.entryOf value
  match entry.common? .hash with
  | none => return boxHash value
  | some method =>
    let box ← Exec.box (← engine.invoke method [value])
    match box.payload with
    | .int hash => return hash
    | _ => Exec.fail (.wrongResult method.name BuiltinType.int.name box.typeId)

/-! ## Many values -/

/-- The texts of values in order. -/
def texts (values : List Ref) : Exec (List Bytes) :=
  values.mapM fun value => do Exec.bytesOf (← engine.textOf value)

/-- The hashes of values in order. -/
def hashes (values : List Ref) : Exec (List Int64) := values.mapM engine.hashOf

/-- Whether the values of all pairs are equal; the first difference decides. -/
def equalPairs : List (Ref × Ref) → Exec Bool
  | [] => return true
  | (first, second) :: rest => do
    if ← engine.areEqual first second then equalPairs rest else return false

/-- Whether one of the values equals `target`; the first such decides. -/
def equalsAny (target : Ref) : List Ref → Exec Bool
  | [] => return false
  | value :: rest => do
    if ← engine.areEqual value target then return true else equalsAny target rest

/-! ## Output -/

/-- The pieces of a line: the texts with a space between any two, and a line feed. -/
def linePieces (texts : List Bytes) : List Bytes :=
  texts.intersperse (Utf8.ofString " ") ++ [Utf8.ofString "\n"]

/-- Print values on a line. All texts are made before the first is written, and the sink is flushed
after the last piece. -/
def printLine (values : List Ref) : Exec Unit := do
  Exec.write (linePieces (← engine.texts values))

end Engine

end BoxedValues
