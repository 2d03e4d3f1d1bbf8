import BoxedValues.Double.Fixed
import BoxedValues.Machine.Arguments
import BoxedValues.Machine.Engine
import BoxedValues.Numeral

/-!
# Text, equality and hash of the builtin types

Reference model of `none_to_string` to `array_to_string` with `render_array`, of `none_eq` to
`array_eq` and of `none_hash` to `array_hash`.

Scalars and strings are printed, compared and hashed by what they hold, arrays element by element
through the methods of the elements. An array that is met again within itself is cut off: its text
is `[...]`, it counts as equal to what it is compared with, and it has a fixed hash.
-/

set_option autoImplicit false

namespace BoxedValues.Engine

variable (engine : Engine)

/-! ## Text -/

/-- The texts of an array's elements in brackets. -/
def bracketed (texts : List Bytes) : Bytes :=
  Utf8.ofString "[" ++ (texts.intersperse (Utf8.ofString ", ")).flatten ++ Utf8.ofString "]"

/-- The number of octets of all texts. -/
def totalSize (texts : List Bytes) : Nat := texts.foldr (fun text size => text.length + size) 0

/-- How many octets the texts of an array's elements take in brackets, reckoned from their sizes
before any is written: the brackets, the texts, and two octets between any two. Without texts this
would be below zero. -/
def reckonedSize? (texts : List Bytes) : Option Nat :=
  if texts.isEmpty then none else some (2 + totalSize texts + 2 * (texts.length - 1))

/-- A new string of the texts of an array's elements in brackets. -/
def newBracketed (texts : List Bytes) : Exec Ref :=
  match reckonedSize? texts with
  | none => throw .sizeBelowZero
  | some reckoned =>
    let written := bracketed texts
    if written.length = reckoned then engine.machine.newString written
    else throw (.sizeMiscalculated written.length reckoned)

/-- The text of an array with the given elements. -/
def arrayText (array : Ref) (items : List Ref) : Exec Ref := do
  if items.isEmpty then engine.machine.newString (Utf8.ofString "[]")
  else
    match ← Exec.marking Exec.textMarks array (engine.texts items) with
    | some texts => engine.newBracketed texts
    | none => engine.machine.newString (Utf8.ofString "[...]")

/-- The text of a value of a builtin type. -/
def text (type : BuiltinType) (args : List Ref) : Exec Ref := do
  match type with
  | .none =>
    Arguments.receiver .none args
    return engine.machine.shared.noneText
  | .int =>
    let value ← Arguments.receiver .int args
    engine.machine.newText (Numeral.ofInt value.toInt)
  | .float =>
    let value ← Arguments.receiver .float args
    engine.machine.newText value.fixedText
  | .bool =>
    let value ← Arguments.receiver .bool args
    return engine.machine.shared.boolText value
  | .string =>
    let _ ← Arguments.receiver .string args
    Arguments.given args 0
  | .array =>
    let buffer ← Arguments.receiver .array args
    engine.arrayText (← Arguments.given args 0) buffer.live

/-! ## Equality -/

/-- Whether two arrays with the given elements are equal. -/
def arraysEqual (first second : Ref) (items others : List Ref) : Exec Bool := do
  let verdict ← Exec.marking Exec.equalityMarks (first, second) do
    if items.length ≠ others.length then return false
    else engine.equalPairs (items.zip others)
  return verdict.getD true

/-- Whether a value of a builtin type equals another value. -/
def equal (type : BuiltinType) (args : List Ref) : Exec Bool := do
  match type with
  | .none =>
    Arguments.receiver .none args
    return (← Exec.payload (← Arguments.given args 1)).isNone
  | .int =>
    let value ← Arguments.receiver .int args
    return (← Exec.payload (← Arguments.given args 1)).int? == some value
  | .float =>
    let value ← Arguments.receiver .float args
    return (← Exec.payload (← Arguments.given args 1)).float?.any (value.ieeeEq ·)
  | .bool =>
    let value ← Arguments.receiver .bool args
    return (← Exec.payload (← Arguments.given args 1)).bool? == some value
  | .string =>
    let value ← Arguments.receiver .string args
    return (← Exec.payload (← Arguments.given args 1)).string? == some value
  | .array =>
    let buffer ← Arguments.receiver .array args
    let other ← Arguments.given args 1
    match (← Exec.payload other).array? with
    | some otherBuffer =>
      engine.arraysEqual (← Arguments.given args 0) other buffer.live otherBuffer.live
    | none => return false

/-! ## Hash -/

/-- The hash that stands for an array within itself. -/
def cycleHash : Int64 := Hash.tagged .cycle []

/-- The hash of an array with the given elements. -/
def hashElements (array : Ref) (items : List Ref) : Exec Int64 := do
  match ← Exec.marking Exec.hashMarks array (engine.hashes items) with
  | some hashes => return Hash.ofElements hashes
  | none => return cycleHash

/-- The hash of a value of a builtin type. -/
def hash (type : BuiltinType) (args : List Ref) : Exec Int64 := do
  match type with
  | .none =>
    Arguments.receiver .none args
    return Hash.tagged .none []
  | .int =>
    let value ← Arguments.receiver .int args
    return Hash.tagged .int (Hash.wordBytes value.toUInt64)
  | .float =>
    let value ← Arguments.receiver .float args
    return Hash.tagged .float (Hash.wordBytes value.unsignedZero.bits)
  | .bool =>
    let value ← Arguments.receiver .bool args
    return Hash.tagged .bool [if value then 1 else 0]
  | .string =>
    let bytes ← Arguments.receiver .string args
    return Hash.tagged .string bytes
  | .array =>
    let buffer ← Arguments.receiver .array args
    engine.hashElements (← Arguments.given args 0) buffer.live

/-- Run a common method of a builtin type. -/
def runCommon (type : BuiltinType) (method : CommonMethod) (args : List Ref) : Exec Ref := do
  match method with
  | .toText => engine.text type args
  | .equal => return engine.machine.boolValue (← engine.equal type args)
  | .hash => engine.machine.newInt (← engine.hash type args)

end BoxedValues.Engine
