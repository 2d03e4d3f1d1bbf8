import BoxedValues.Machine.Values

/-!
# Receivers and arguments

Reference model of the checks that builtin methods share, each one definition for all kinds:

* `Arguments.receiver` is `none_receiver`, `bool_receiver`, `int_receiver` and so on, with
  `receiver_error`;
* `Arguments.required` is `int_arg`, `string_arg` and `array_arg`, with `argument_error`;
* `Arguments.optional` is `optional_int_arg` and `optional_string_arg`, by way of `optional_arg`.

Builtin methods check the kinds of their arguments one by one, the receiver first, and complain
about the first that is wrong. The number of arguments was checked before.
-/

set_option autoImplicit false

namespace BoxedValues

/-- A builtin type with a way to take what its payloads hold. -/
structure Accessor (α : Type) where
  type : BuiltinType
  get? : Payload → Option α

namespace Accessor

/-- `None`, which holds nothing. -/
def none : Accessor Unit := ⟨.none, fun payload => if payload.isNone then some () else .none⟩

def bool : Accessor Bool := ⟨.bool, Payload.bool?⟩

def int : Accessor Int64 := ⟨.int, Payload.int?⟩

def float : Accessor Double := ⟨.float, Payload.float?⟩

def string : Accessor Bytes := ⟨.string, Payload.string?⟩

def array : Accessor Buffer := ⟨.array, Payload.array?⟩

end Accessor

namespace Arguments

/-- The argument at a position. -/
def given (args : List Ref) (index : Nat) : Exec Ref :=
  match args[index]? with
  | some value => pure value
  | none => throw (.missingArgument index)

/-- What the receiver holds. -/
def receiver {α : Type} (held : Accessor α) (args : List Ref) : Exec α := do
  let box ← Exec.box (← given args 0)
  match held.get? box.payload with
  | some value => return value
  | none => Exec.fail (.wrongReceiver held.type.name box.typeId)

/-- What the argument at a position behind the receiver holds. -/
def required {α : Type} (held : Accessor α) (args : List Ref) (index : Nat) : Exec α := do
  let box ← Exec.box (← given args index)
  match held.get? box.payload with
  | some value => return value
  | none => Exec.fail (.wrongArgument index held.type.name box.typeId)

/-- What an argument holds that may be left out. `None` counts as left out. -/
def optional {α : Type} (held : Accessor α) (args : List Ref) (index : Nat) : Exec (Option α) := do
  match args[index]? with
  | none => return none
  | some value =>
    if (← Exec.payload value).isNone then return none
    else return some (← required held args index)

end Arguments

end BoxedValues
