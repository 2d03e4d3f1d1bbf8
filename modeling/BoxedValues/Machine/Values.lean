import BoxedValues.Machine.Basic
import BoxedValues.Position

/-!
# Making and changing values

Reference model of the constructors of `Runtime`, `make_none` to `make_instance` with `alloc_array`,
`make_array_with_capacity` and `concat_strings`; of `get` and `get_range` of `Str` and `Array`
(`Machine.element`, `Machine.part`); and of `Array.push`, `Array.set` and `Instance.set_field`.

Constructors of values on a machine, access to the elements of strings and arrays, and the two
changes that values allow: an array's slots and a record's fields.
-/

set_option autoImplicit false

namespace BoxedValues.Machine

variable (machine : Machine)

/-! ## Constructors -/

/-- The `None` value. -/
def noneValue : Ref := machine.shared.none

/-- One of the two `Bool` values. -/
def boolValue (value : Bool) : Ref := machine.shared.bool value

/-- A new `Int`. -/
def newInt (value : Int64) : Exec Ref := Exec.alloc ⟨machine.ids.int, .int value⟩

/-- A new `Float`. -/
def newFloat (value : Double) : Exec Ref := Exec.alloc ⟨machine.ids.float, .float value⟩

/-- A new `String`. -/
def newString (bytes : Bytes) : Exec Ref := Exec.alloc ⟨machine.ids.string, .string bytes⟩

/-- A new `String` of a text. -/
def newText (text : List Char) : Exec Ref := machine.newString (Utf8.encode text)

/-- A new `Array` with the given storage. -/
def newBuffer (buffer : Buffer) : Exec Ref := Exec.alloc ⟨machine.ids.array, .array buffer⟩

/-- A new `Array` of the given elements. -/
def newArray (items : List Ref) : Exec Ref := machine.newBuffer (.ofItems machine.noneValue items)

/-- A new `Array` of `length` times `None`, with room for `capacity` elements. -/
def newFilledArray (length capacity : Nat) : Exec Ref :=
  machine.newBuffer (.filled machine.noneValue length capacity)

/-- A new record. -/
def newRecord (type : TypeId) (fields : List Ref) : Exec Ref := Exec.alloc ⟨type, .record fields⟩

/-- A new `Array` of new `String`s. -/
def newTexts (texts : List (List Char)) : Exec Ref := do
  machine.newArray (← texts.mapM machine.newText)

/-! ## Elements -/

/-- The element of a `String`, as a new `String` of one octet, or of an `Array`; `None` if there is
no such element or the value has none. -/
def element (value : Ref) (index : Int64) : Exec Ref := do
  match ← Exec.payload value with
  | .string bytes =>
    match Position.get? bytes index with
    | some byte => machine.newString [byte]
    | none => return machine.noneValue
  | .array buffer => return (Position.get? buffer.live index).getD machine.noneValue
  | _ => return machine.noneValue

/-- A new `String` or `Array` of the part between two positions; `None` for other values. -/
def part (value : Ref) (start stop : Int64) : Exec Ref := do
  match ← Exec.payload value with
  | .string bytes => machine.newString (Position.slice bytes start stop)
  | .array buffer => machine.newArray (Position.slice buffer.live start stop)
  | _ => return machine.noneValue

/-- A new `String` of the octets of two others. -/
def concatStrings (first second : Bytes) : Exec Ref := machine.newString (first ++ second)

/-! ## Changes -/

/-- Append an element to an array; other values stay as they are. -/
def push (array item : Ref) : Exec Unit := do
  match ← Exec.payload array with
  | .array buffer => Exec.setPayload array (.array (buffer.push machine.noneValue item))
  | _ => return ()

end BoxedValues.Machine

namespace BoxedValues.Exec

/-- The octets of a string; none for other values. -/
def bytesOf (value : Ref) : Exec Bytes := return ((← payload value).string?).getD []

/-- The live elements of an array; none for other values. -/
def itemsOf (value : Ref) : Exec (List Ref) :=
  return ((← payload value).array?.map Buffer.live).getD []

/-- Store into a slot of an array, whatever its length. The slot must exist. -/
def setSlot (array : Ref) (index : Nat) (item : Ref) : Exec Unit := do
  match ← payload array with
  | .array buffer =>
    match buffer.set? index item with
    | some buffer => setPayload array (.array buffer)
    | none => throw (.storeBeyondCapacity index buffer.capacity)
  | _ => return ()

/-- Replace a field of a record. The result is its previous value, or `none` if there is no such
field. -/
def setField (record : Ref) (index : Nat) (item : Ref) : Exec (Option Ref) := do
  match (← payload record).record? with
  | some fields =>
    if index < fields.length then setPayload record (.record (fields.set index item))
    return fields[index]?
  | none => return none

end BoxedValues.Exec
