import BoxedValues.Machine.ArrayLibrary
import BoxedValues.Machine.CommonMethods
import BoxedValues.Machine.StringLibrary

/-!
# Running methods

Reference model of `Method.call`, which looks at the number of arguments (`Engine.runMethod`), and
of the methods of `Runtime` as callers from outside see them.

`Machine.invoke` closes the circle between methods and dispatch: a method may call others, nested as
deeply as its first argument allows. The operations at the end of the module choose that depth from
the state. It suffices for every nesting that values alone can cause: no array is entered within
itself, and no pair of arrays within itself.
-/

set_option autoImplicit false

namespace BoxedValues

namespace Engine

variable (engine : Engine)

/-- Run a builtin method. -/
def runBuiltin (builtin : Builtin) (args : List Ref) : Exec Ref :=
  match builtin with
  | .common type method => engine.runCommon type method args
  | .string method => engine.machine.runString method args
  | .array method => engine.runArray method args

/-- Answer a request of a program. -/
def answer (request : Request) : Exec request.Answer :=
  match request with
  | .none => pure engine.machine.noneValue
  | .bool value => pure (engine.machine.boolValue value)
  | .int value => engine.machine.newInt value
  | .float value => engine.machine.newFloat value
  | .string bytes => engine.machine.newString bytes
  | .array items => engine.machine.newArray items
  | .filledArray length capacity => engine.machine.newFilledArray length capacity
  | .record type fields => Machine.newRecord type fields
  | .typeOf value => Exec.typeId value
  | .view value => return (← Exec.payload value).view
  | .set array index item => Exec.setSlot array index item
  | .push array item => engine.machine.push array item
  | .setField value index item => Exec.setField value index item
  | .text value => Exec.attempt (engine.textOf value)
  | .equal first second => Exec.attempt (engine.areEqual first second)
  | .hash value => Exec.attempt (engine.hashOf value)
  | .call slot args => Exec.attempt (engine.send slot args)
  | .invoke type slot args => Exec.attempt (engine.sendAs type slot args)
  | .printLine items => Exec.attempt (engine.printLine items)

/-- Run a program. -/
def run {α : Type} : Program α → Exec α
  | .done result => pure result
  | .fail error => Exec.fail error
  | .ask request next => do
    let answer ← engine.answer request
    run (next answer)

/-- Run a method on arguments of the right number. -/
def runBody (method : Method) (args : List Ref) : Exec Ref :=
  match method with
  | .builtin builtin => engine.runBuiltin builtin args
  | .function _ _ body => engine.run (body args)
  | .closure _ _ captures body => engine.run (body captures args)

/-- Run a method, after a look at the number of its arguments. -/
def runMethod (method : Method) (args : List Ref) : Exec Ref :=
  if method.arity.accepts args.length then engine.runBody method args
  else Exec.fail (.argumentCount method.name method.arity args.length)

end Engine

namespace Machine

variable (machine : Machine)

/-- Run a method whose calls are nested less than `depth` deep. -/
def invoke : Nat → Method → List Ref → Exec Ref
  | 0 => fun _ _ => throw .depthExceeded
  | depth + 1 => Engine.runMethod ⟨machine, invoke depth⟩

/-- A machine that nests calls less than `depth` deep. -/
def engine (depth : Nat) : Engine := ⟨machine, machine.invoke depth⟩

/-- The depth of nesting in a state. A comparison can be nested as deeply as there are pairs of
arrays. -/
def depth (state : State) : Nat := machine.allowance + (state.heap.size + 2) * (state.heap.size + 2)

/-- Act on the machine with the depth of the current state. -/
def act {α : Type} (action : Engine → Exec α) : Exec α :=
  fun state => action (machine.engine (machine.depth state)) state

/-! ## Operations -/

/-- The text of a value, a `String`. -/
def textOf (value : Ref) : Exec Ref := machine.act (·.textOf value)

/-- Whether two values are equal. -/
def areEqual (first second : Ref) : Exec Bool := machine.act (·.areEqual first second)

/-- The hash of a value. -/
def hashOf (value : Ref) : Exec Int64 := machine.act (·.hashOf value)

/-- Call the method in a slot of the first argument's type. -/
def send (slot : Nat) (args : List Ref) : Exec Ref := machine.act (·.send slot args)

/-- Call the method in a slot of a given type, whatever the type of the first argument. -/
def sendAs (type : TypeId) (slot : Nat) (args : List Ref) : Exec Ref :=
  machine.act (·.sendAs type slot args)

/-- Run a method. -/
def runMethod (method : Method) (args : List Ref) : Exec Ref :=
  machine.act (·.invoke method args)

/-- Print values on a line. -/
def printLine (values : List Ref) : Exec Unit := machine.act (·.printLine values)

end Machine

end BoxedValues
