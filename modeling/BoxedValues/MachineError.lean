import BoxedValues.Arity
import BoxedValues.Kind
import BoxedValues.TypeId

/-!
# Errors of a machine

Reference model of `RuntimeError` with its messages: the ways in which setting up a machine, finding
a method and running it can fail. An index out of range is no error: it yields `None` or an empty
container.
-/

set_option autoImplicit false

namespace BoxedValues

/-- Why an operation failed. -/
inductive MachineError where
  /-- A type identity lies beyond the type table. -/
  | beyondTable (id : TypeId) (numTypes : Nat)
  /-- The place of a type is taken. -/
  | registeredTwice (id : TypeId)
  /-- Two builtin types have one identity. -/
  | sharedId (id : TypeId) (first second : BuiltinType)
  /-- No type is registered under an identity. -/
  | notRegistered (id : TypeId)
  /-- A type has no method in a slot. -/
  | noMethod (typeName : String) (slot : Nat)
  /-- A method was given too few or too many arguments. -/
  | argumentCount (name : String) (accepted : Arity) (given : Nat)
  /-- The receiver of a method has the wrong kind. -/
  | wrongReceiver (expected : String) (found : TypeId)
  /-- Another argument of a method has the wrong kind. -/
  | wrongArgument (index : Nat) (expected : String) (found : TypeId)
  /-- A method did not return what its slot promises. -/
  | wrongResult (name : String) (expected : String) (found : TypeId)
  /-- The sink refused a piece of output. -/
  | outputRefused (reason : String)
  deriving DecidableEq

/-- The message of an error. -/
def MachineError.message : MachineError → String
  | .beyondTable id numTypes =>
    s!"type id {id} is out of range for a dispatch table of {numTypes} types"
  | .registeredTwice id => s!"type id {id} is registered twice"
  | .sharedId id first second =>
    s!"builtin types `{first.name}` and `{second.name}` share type id {id}"
  | .notRegistered id => s!"type id {id} has no dispatch table entry"
  | .noMethod typeName slot => s!"type `{typeName}` has no method in slot {slot}"
  | .argumentCount name accepted given =>
    s!"method `{name}` takes {accepted} arguments, {given} given"
  | .wrongReceiver expected found => s!"expected a receiver of type {expected}, found {found}"
  | .wrongArgument index expected found => s!"argument {index} must be {expected}, found {found}"
  | .wrongResult name expected found => s!"method `{name}` returned {found}, expected {expected}"
  | .outputRefused reason => s!"failed to write output: {reason}"

end BoxedValues
