import BoxedValues.Double.Basic
import BoxedValues.Kind
import BoxedValues.Position
import BoxedValues.Text.Utf8

/-!
# Literal values

What the functions of `Reader` work out, before it is built on a heap: a tree of scalars, strings
and arrays. `get` and `get_range` of `Str` and `Array` act on it as they do on values. Strings and
arrays can be indexed and sliced (`Literal.get?`, `Literal.slice?`).
-/

set_option autoImplicit false

namespace BoxedValues

/-- The value of a literal text. -/
inductive Literal where
  | none
  | bool (value : Bool)
  | int (value : Int64)
  | float (value : Double)
  | string (bytes : Bytes)
  | array (items : List Literal)

namespace Literal

/-- The type of a literal. -/
def type : Literal → BuiltinType
  | .none => .none
  | .bool _ => .bool
  | .int _ => .int
  | .float _ => .float
  | .string _ => .string
  | .array _ => .array

/-- The element at an index: a string of one octet, or an item of an array, or `None` if there is
no such element. Scalars have no elements at all. -/
def get? (index : Int64) : Literal → Option Literal
  | .string bytes => some <|
    match Position.get? bytes index with
    | some byte => .string [byte]
    | .none => .none
  | .array items => some ((Position.get? items index).getD .none)
  | _ => .none

/-- The part of a string or an array between two positions. Scalars have no parts. -/
def slice? (start stop : Int64) : Literal → Option Literal
  | .string bytes => some (.string (Position.slice bytes start stop))
  | .array items => some (.array (Position.slice items start stop))
  | _ => .none

end Literal

end BoxedValues
