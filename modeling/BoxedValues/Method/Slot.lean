import BoxedValues.Arity

/-!
# Method slots

Reference model of `Intrinsic`, `StringMethod` and `ArrayMethod` with `slot` and `name`; `ofSlot?`
is `from_ordinal`. A method is called by its place in its type's list of methods. The common methods
have the same first places in every type, so that a caller who knows nothing of a value can still
print, compare and hash it. The libraries of `String` and `Array` follow in theirs.
-/

set_option autoImplicit false

namespace BoxedValues

/-- The methods with one place in every type. -/
inductive CommonMethod where
  | toText
  | equal
  | hash
  deriving DecidableEq

namespace CommonMethod

/-- All common methods in slot order. -/
def all : List CommonMethod := [.toText, .equal, .hash]

def slot : CommonMethod → Nat
  | .toText => 0
  | .equal => 1
  | .hash => 2

def name : CommonMethod → String
  | .toText => "toString"
  | .equal => "eq"
  | .hash => "hash"

/-- The arity of the builtin types' own common methods. -/
def arity : CommonMethod → Arity
  | .toText => .exactly 1
  | .equal => .exactly 2
  | .hash => .exactly 1

/-- The common method of a slot. -/
def ofSlot? (slot : Nat) : Option CommonMethod := all.find? fun method => method.slot == slot

theorem ofSlot?_slot (method : CommonMethod) : ofSlot? method.slot = some method := by
  cases method <;> rfl

end CommonMethod

/-- The library of `String`. -/
inductive StringMethod where
  /-- The number of octets. -/
  | length
  | toLower
  | toUpper
  /-- Copies of a padding in front, as far as they fit in a width. -/
  | padLeft
  | trim
  /-- White space, or copies of a pattern, off the beginning. -/
  | trimStart
  /-- White space, or copies of a pattern, off the end. -/
  | trimEnd
  | split
  | lines
  | chars
  /-- The integer of a numeral in a radix, ten if none is given. -/
  | parseInt
  | parseFloat
  deriving DecidableEq

namespace StringMethod

/-- The library in slot order. -/
def all : List StringMethod :=
  [.length, .toLower, .toUpper, .padLeft, .trim, .trimStart, .trimEnd, .split, .lines, .chars,
    .parseInt, .parseFloat]

def slot : StringMethod → Nat
  | .length => 3
  | .toLower => 4
  | .toUpper => 5
  | .padLeft => 6
  | .trim => 7
  | .trimStart => 8
  | .trimEnd => 9
  | .split => 10
  | .lines => 11
  | .chars => 12
  | .parseInt => 13
  | .parseFloat => 14

def name : StringMethod → String
  | .length => "length"
  | .toLower => "toLower"
  | .toUpper => "toUpper"
  | .padLeft => "padLeft"
  | .trim => "trim"
  | .trimStart => "trimStart"
  | .trimEnd => "trimEnd"
  | .split => "split"
  | .lines => "lines"
  | .chars => "chars"
  | .parseInt => "parseInt"
  | .parseFloat => "parseFloat"

def arity : StringMethod → Arity
  | .padLeft => .exactly 3
  | .split => .exactly 2
  | .trimStart => ⟨1, 2⟩
  | .trimEnd => ⟨1, 2⟩
  | .parseInt => ⟨1, 2⟩
  | _ => .exactly 1

/-- The `String` method of a slot. -/
def ofSlot? (slot : Nat) : Option StringMethod := all.find? fun method => method.slot == slot

theorem ofSlot?_slot (method : StringMethod) : ofSlot? method.slot = some method := by
  cases method <;> rfl

end StringMethod

/-- The library of `Array`. -/
inductive ArrayMethod where
  | length
  | isEmpty
  | push
  | concat
  /-- The texts of the elements, with an optional separator between them. -/
  | join
  | contains
  /-- The elements without those that equal an earlier one. -/
  | dedupe
  /-- A pair of element and index for every element. -/
  | enumerate
  deriving DecidableEq

namespace ArrayMethod

/-- The library in slot order. -/
def all : List ArrayMethod :=
  [.length, .isEmpty, .push, .concat, .join, .contains, .dedupe, .enumerate]

def slot : ArrayMethod → Nat
  | .length => 3
  | .isEmpty => 4
  | .push => 5
  | .concat => 6
  | .join => 7
  | .contains => 8
  | .dedupe => 9
  | .enumerate => 10

def name : ArrayMethod → String
  | .length => "length"
  | .isEmpty => "isEmpty"
  | .push => "push"
  | .concat => "concat"
  | .join => "join"
  | .contains => "contains"
  | .dedupe => "dedupe"
  | .enumerate => "enumerate"

def arity : ArrayMethod → Arity
  | .push => .exactly 2
  | .concat => .exactly 2
  | .contains => .exactly 2
  | .join => ⟨1, 2⟩
  | _ => .exactly 1

/-- The `Array` method of a slot. -/
def ofSlot? (slot : Nat) : Option ArrayMethod := all.find? fun method => method.slot == slot

theorem ofSlot?_slot (method : ArrayMethod) : ofSlot? method.slot = some method := by
  cases method <;> rfl

end ArrayMethod

end BoxedValues
