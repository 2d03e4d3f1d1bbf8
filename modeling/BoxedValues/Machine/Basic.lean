import BoxedValues.Machine.State
import BoxedValues.Table

/-!
# Machines

Reference model of `BuiltinTypes` with `validate`, of `RuntimeBuilder` with `new`, `register` and
`build` (`Setup.start`, `Setup.register`, `Setup.finish`), of the `entrypoint` that registers the
builtin types, and of the fields of `Runtime` that never change.

A machine is what all methods run on: the identities of the builtin types, the type table and the
values that exist once. It is assembled in steps (`Setup`): the builtin identities are checked,
further types are registered, and at last the builtin types are, after which the table is final.
-/

set_option autoImplicit false

namespace BoxedValues

/-! ## Builtin identities -/

/-- The type identities of the builtin types. -/
structure BuiltinIds where
  none : TypeId
  int : TypeId
  float : TypeId
  bool : TypeId
  string : TypeId
  array : TypeId
  deriving DecidableEq

namespace BuiltinIds

/-- The builtin types numbered in order. -/
def standard : BuiltinIds := ⟨⟨0⟩, ⟨1⟩, ⟨2⟩, ⟨3⟩, ⟨4⟩, ⟨5⟩⟩

/-- The identity of a builtin type. -/
def id (ids : BuiltinIds) : BuiltinType → TypeId
  | .none => ids.none
  | .int => ids.int
  | .float => ids.float
  | .bool => ids.bool
  | .string => ids.string
  | .array => ids.array

/-- Check the identities of `rest`, which come after the types `earlier`: each one has a place in
the table and belongs to no earlier type. -/
def checkFrom (ids : BuiltinIds) (numTypes : Nat) (earlier : List BuiltinType) :
    List BuiltinType → Except MachineError Unit
  | [] => .ok ()
  | type :: rest =>
    if numTypes ≤ (ids.id type).index then .error (.beyondTable (ids.id type) numTypes)
    else
      match earlier.find? fun other => ids.id other = ids.id type with
      | some first => .error (.sharedId (ids.id type) first type)
      | .none => ids.checkFrom numTypes (earlier ++ [type]) rest

/-- Check that every identity has a place in the table and that no two are equal. -/
def check (ids : BuiltinIds) (numTypes : Nat) : Except MachineError Unit :=
  ids.checkFrom numTypes [] BuiltinType.all

end BuiltinIds

/-! ## Values that exist once -/

/-- The `None` value, the two `Bool` values, and the texts of the three. -/
structure Shared where
  none : Ref
  false : Ref
  true : Ref
  noneText : Ref
  falseText : Ref
  trueText : Ref

namespace Shared

/-- The shared values of a machine with the given builtin types, and the heap with them. All six are
made when the machine is finished, where `make_none`, `make_bool`, `literal_none` and `literal_bool`
make each of them when it is first asked for. The time makes no difference to what a machine can be
seen to do: they are in no array or record before they are asked for, and only the numbers of boxes
that are made later, and with them the hashes of boxes without a method for it, depend on it. -/
def alloc (ids : BuiltinIds) (heap : Heap) : Shared × Heap :=
  let text (word : String) : Box := ⟨ids.string, .string (Utf8.ofString word)⟩
  let (none, heap) := heap.alloc ⟨ids.none, .none⟩
  let (false, heap) := heap.alloc ⟨ids.bool, .bool Bool.false⟩
  let (true, heap) := heap.alloc ⟨ids.bool, .bool Bool.true⟩
  let (noneText, heap) := heap.alloc (text "None")
  let (falseText, heap) := heap.alloc (text "false")
  let (trueText, heap) := heap.alloc (text "true")
  (⟨none, false, true, noneText, falseText, trueText⟩, heap)

/-- The shared value of a truth value. -/
def bool (shared : Shared) (value : Bool) : Ref := if value then shared.true else shared.false

/-- The shared text of a truth value. -/
def boolText (shared : Shared) (value : Bool) : Ref :=
  if value then shared.trueText else shared.falseText

end Shared

/-! ## Machines -/

/-- What does not change while methods run. -/
structure Machine where
  ids : BuiltinIds
  table : Table
  shared : Shared
  /-- How deeply calls may be nested, beyond what the values on the heap need. -/
  allowance : Nat

/-- A machine under construction. -/
structure Setup where
  ids : BuiltinIds
  table : Table

namespace Setup

/-- Begin a machine with room for so many types. -/
def start (numTypes : Nat) (ids : BuiltinIds) : Except MachineError Setup := do
  ids.check numTypes
  return ⟨ids, .ofSize numTypes⟩

/-- Add a type. -/
def register (setup : Setup) (id : TypeId) (entry : Entry) : Except MachineError Setup :=
  return { setup with table := ← setup.table.register id entry }

/-- Add types one after another. -/
def registerAll (setup : Setup) (types : List (TypeId × Entry)) : Except MachineError Setup :=
  types.foldlM (fun setup type => setup.register type.1 type.2) setup

/-- Add the builtin types. -/
def registerBuiltins (setup : Setup) : Except MachineError Setup :=
  setup.registerAll (BuiltinType.all.map fun type => (setup.ids.id type, type.entry))

/-- The depth of nesting that a machine allows beyond what its values need. -/
def standardAllowance : Nat := 10000

/-- The finished machine, and its state with the given sink and the boxes made so far. -/
def finish (setup : Setup) (heap : Heap) (sink : Sink) : Except MachineError (Machine × State) := do
  let setup ← setup.registerBuiltins
  let (shared, heap) := Shared.alloc setup.ids heap
  return (⟨setup.ids, setup.table, shared, standardAllowance⟩, ⟨heap, .none, sink⟩)

end Setup

/-- A machine with the builtin types only, numbered in order. -/
def Machine.standard : Except MachineError (Machine × State) := do
  let setup ← Setup.start BuiltinType.all.length BuiltinIds.standard
  setup.finish .empty .unlimited

end BoxedValues
