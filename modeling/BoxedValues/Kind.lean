/-!
# Kinds of values

Reference model of the variants of `Val`, with their names in `kind_name`. The six builtin types
each have a payload of their own. All other types share one kind of payload, the record of fields.
-/

set_option autoImplicit false

namespace BoxedValues

/-- A builtin type, in the order in which the types are declared and registered. -/
inductive BuiltinType where
  | none
  | int
  | float
  | bool
  | string
  | array
  deriving DecidableEq

namespace BuiltinType

/-- All builtin types in order. -/
def all : List BuiltinType := [.none, .int, .float, .bool, .string, .array]

/-- The name of a builtin type. -/
def name : BuiltinType → String
  | .none => "None"
  | .int => "Int"
  | .float => "Float"
  | .bool => "Bool"
  | .string => "String"
  | .array => "Array"

theorem mem_all (type : BuiltinType) : type ∈ all := by cases type <;> decide

end BuiltinType

/-- What a box holds. -/
inductive Kind where
  | builtin (type : BuiltinType)
  | record
  deriving DecidableEq

/-- The name of a kind. -/
def Kind.name : Kind → String
  | .builtin type => type.name
  | .record => "Instance"

end BoxedValues
