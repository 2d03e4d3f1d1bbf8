import BoxedValues.Double.Shortest
import BoxedValues.Machine.Invoke
import BoxedValues.Text.Quoted

/-!
# Descriptions

Reference model of the `Debug` texts of `Val`, `Array`, `Instance`, `Method`, `VTable` and `Runtime`:
texts in which a developer sees the parts of a value, a method, a table or a machine, as names with
labelled parts in braces. A description of a value never looks into its elements, so arrays that
contain themselves can be described.
-/

set_option autoImplicit false

namespace BoxedValues

namespace Inspect

/-- A name with labelled parts. -/
def labelled (name : String) (parts : List (String × String)) : String :=
  name ++ " \x7b " ++ ", ".intercalate (parts.map fun part => part.1 ++ ": " ++ part.2) ++ " \x7d"

/-- A name with parts in order. -/
def applied (name : String) (parts : List String) : String :=
  name ++ "(" ++ ", ".intercalate parts ++ ")"

/-- A list of parts. -/
def list (parts : List String) : String := "[" ++ ", ".intercalate parts ++ "]"

/-- A part that may be missing. -/
def optional (part : Option String) : String :=
  match part with
  | some part => applied "Some" [part]
  | none => "None"

/-- A text between quotation marks. -/
def quoted (text : List Char) : String := String.ofList (Quoted.quote text)

end Inspect

/-! ## Values -/

/-- A type identity as a part of a description. -/
def TypeId.describe (id : TypeId) : String := Inspect.applied "TypeId" [s!"{id.index}"]

/-- The lengths of an array's storage. -/
def Buffer.describe (buffer : Buffer) : String :=
  Inspect.labelled "Array" [("len", s!"{buffer.length}"), ("capacity", s!"{buffer.capacity}")]

/-- The payload of a box. -/
def Payload.describe : Payload → String
  | .none => "()"
  | .bool value => if value then "true" else "false"
  | .int value => String.ofList (Numeral.ofInt value.toInt)
  | .float value => String.ofList value.debugText
  | .string bytes => Inspect.quoted (Utf8.decodeLossy bytes)
  | .array buffer => buffer.describe
  | .record fields => Inspect.labelled "Instance" [("fields", s!"{fields.length}")]

/-- A box with its type identity. -/
def Box.describe (box : Box) : String :=
  Inspect.applied "Gc" [box.typeId.describe, box.payload.describe]

/-- A value, without its box: arrays show their length and records their type. -/
def Box.describeValue (box : Box) : String :=
  match box.payload with
  | .none => "None"
  | .array buffer => s!"Array(len = {buffer.length})"
  | .record _ => s!"Instance({box.typeId})"
  | payload => payload.describe

/-! ## Methods and tables -/

/-- An argument range. -/
def Arity.describe (arity : Arity) : String :=
  Inspect.labelled "Arity" [("min", s!"{arity.min}"), ("max", s!"{arity.max}")]

/-- A method with its name and arity, and a closure with the number of its captures. -/
def Method.describe (method : Method) : String :=
  let name := ("name", Inspect.quoted method.name.toList)
  let arity := ("arity", method.arity.describe)
  match method.captures? with
  | some captures =>
    Inspect.applied "Closure"
      [Inspect.labelled "Closure" [name, ("captures", s!"{captures.length}"), arity]]
  | none => Inspect.applied "Function" [Inspect.labelled "Function" [name, arity]]

/-- A type with all its methods. -/
def Entry.describe (entry : Entry) : String :=
  Inspect.labelled "VTableEntry"
    [("name", Inspect.quoted entry.name.toList),
      ("methods", Inspect.list (entry.methods.map Method.describe))]

/-- All places of a table. -/
def Table.describe (table : Table) : String :=
  let places := table.entries.toList.map fun entry => Inspect.optional (entry.map Entry.describe)
  Inspect.labelled "VTable" [("entries", Inspect.list places)]

/-- The identities of the builtin types. -/
def BuiltinIds.describe (ids : BuiltinIds) : String :=
  Inspect.labelled "BuiltinTypes"
    [("none", ids.none.describe), ("int", ids.int.describe), ("float", ids.float.describe),
      ("bool", ids.bool.describe), ("string", ids.string.describe),
      ("array", ids.array.describe)]

/-- The fixed part of a machine, without its inner workings. -/
def Machine.describe (machine : Machine) : String :=
  "Runtime \x7b types: " ++ machine.ids.describe ++ ", vtable: " ++ machine.table.describe ++
    ", .. \x7d"

end BoxedValues
