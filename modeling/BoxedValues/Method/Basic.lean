import BoxedValues.Method.Program
import BoxedValues.Method.Slot

/-!
# Methods

Reference model of `Method` with its variants `Function` and `Closure`, and of `VTableEntry` with
`name`, `methods`, `method` and `intrinsic`. A method is one of the builtin ones or a registered
one. A closure is a registered method that holds values of its own, which its body gets before the
arguments.
-/

set_option autoImplicit false

namespace BoxedValues

/-- The methods of the builtin types. -/
inductive Builtin where
  | common (type : BuiltinType) (method : CommonMethod)
  | string (method : StringMethod)
  | array (method : ArrayMethod)
  deriving DecidableEq

namespace Builtin

def name : Builtin → String
  | .common _ method => method.name
  | .string method => method.name
  | .array method => method.name

def arity : Builtin → Arity
  | .common _ method => method.arity
  | .string method => method.arity
  | .array method => method.arity

/-- The type whose values the method takes as receivers. -/
def type : Builtin → BuiltinType
  | .common type _ => type
  | .string _ => .string
  | .array _ => .array

end Builtin

/-- What a slot of a type holds. -/
inductive Method where
  | builtin (method : Builtin)
  | function (name : String) (arity : Arity) (body : List Ref → Program Ref)
  | closure (name : String) (arity : Arity) (captures : List Ref)
      (body : List Ref → List Ref → Program Ref)

namespace Method

def name : Method → String
  | .builtin method => method.name
  | .function name _ _ => name
  | .closure name _ _ _ => name

def arity : Method → Arity
  | .builtin method => method.arity
  | .function _ arity _ => arity
  | .closure _ arity _ _ => arity

/-- The values that a closure holds. -/
def captures? : Method → Option (List Ref)
  | .closure _ _ captures _ => some captures
  | _ => none

end Method

/-- A type in the type table: its name and its methods in slot order. -/
structure Entry where
  name : String
  methods : List Method

namespace Entry

/-- The method in a slot. -/
def method? (entry : Entry) (slot : Nat) : Option Method := entry.methods[slot]?

/-- The common method of a type. -/
def common? (entry : Entry) (method : CommonMethod) : Option Method := entry.method? method.slot

/-- A type with the names of its methods. -/
def text (entry : Entry) : String :=
  s!"{entry.name} [" ++ ", ".intercalate (entry.methods.map Method.name) ++ "]"

end Entry

/-- The methods of a builtin type. -/
def BuiltinType.methods (type : BuiltinType) : List Builtin :=
  CommonMethod.all.map (.common type ·) ++
    match type with
    | .string => StringMethod.all.map .string
    | .array => ArrayMethod.all.map .array
    | _ => []

/-- The entry of a builtin type. -/
def BuiltinType.entry (type : BuiltinType) : Entry := ⟨type.name, type.methods.map .builtin⟩

end BoxedValues
