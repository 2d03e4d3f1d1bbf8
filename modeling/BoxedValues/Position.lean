/-!
# Positions in a container

Reference model of `normalize_index` and `normalize_range`. An index or the endpoint of a slice is a
64-bit integer; a negative one counts from the end. The arithmetic is done on machine words, as
everywhere in the values' world.

* `Position.index?` resolves an index against a length;
* `Position.range?` resolves the two endpoints of a slice.
-/

set_option autoImplicit false

namespace BoxedValues.Position

/-- The position that an index denotes in a container of the given length, if there is one. -/
def index? (index : Int64) (length : Nat) : Option Nat :=
  let length := Int64.ofNat length
  if index < -length ∨ length ≤ index then none
  else some (if index < 0 then index + length else index).toNatClampNeg

/-- The first position of a slice: a negative start counts from the end but not beyond the
beginning, and an empty container has only the start 0. -/
def rangeStart (start length : Int64) : Int64 :=
  if length = 0 then 0
  else if start < 0 then if start + length < 0 then 0 else start + length
  else start

/-- The position behind a slice that begins at `start`: a negative end counts from the end of the
container, and the result lies neither before the start nor beyond the container. -/
def rangeStop (start stop length : Int64) : Int64 :=
  let stop := if stop < 0 then stop + length else stop
  let stop := if stop < start then start else stop
  if length ≤ stop then length else stop

/-- The half-open range of positions that a slice takes, if it takes any. -/
def range? (start stop : Int64) (length : Nat) : Option (Nat × Nat) :=
  let length := Int64.ofNat length
  let start := rangeStart start length
  let stop := rangeStop start stop length
  if stop ≤ start then none else some (start.toNatClampNeg, stop.toNatClampNeg)

/-- The element that an index denotes. -/
def get? {α : Type} (items : List α) (index : Int64) : Option α :=
  (index? index items.length).bind (items[·]?)

/-- The elements that a slice takes. -/
def slice {α : Type} (items : List α) (start stop : Int64) : List α :=
  match range? start stop items.length with
  | some (first, last) => (items.drop first).take (last - first)
  | none => []

example : get? [1, 2, 3] (-1) = some 3 ∧ get? [1, 2, 3] 3 = none ∧
    slice [1, 2, 3] (-2) 9 = [2, 3] := by decide

end BoxedValues.Position
