/-!
# Type identities

Reference model of `TypeId`. Every box carries the identity of its type, a number that is also the
type's place in the type table.
-/

set_option autoImplicit false

namespace BoxedValues

/-- The identity of a type. -/
structure TypeId where
  number : UInt32
  deriving DecidableEq

namespace TypeId

/-- The place of the type in the type table. -/
def index (id : TypeId) : Nat := id.number.toNat

/-- A type identity in messages, such as `#4`. -/
def text (id : TypeId) : String := s!"#{id.index}"

instance : ToString TypeId := ⟨text⟩

theorem ext_index {a b : TypeId} (h : a.index = b.index) : a = b := by
  cases a; cases b; simpa [index, UInt32.toNat_inj] using h

end TypeId

end BoxedValues
