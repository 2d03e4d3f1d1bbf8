/-!
# Sets of characters given by ranges of code points

A character property of the Unicode standard is a list of closed ranges; a character has the
property when its code point lies in one of them (`CodeRanges.contains_iff`).
-/

set_option autoImplicit false

namespace BoxedValues

/-- Closed ranges of code points, in increasing order. -/
abbrev CodeRanges := List (Nat × Nat)

namespace CodeRanges

/-- Whether the code point of `c` lies in one of the ranges. -/
def contains (ranges : CodeRanges) (c : Char) : Bool :=
  ranges.any fun range => decide (range.1 ≤ c.toNat) && decide (c.toNat ≤ range.2)

theorem contains_iff (ranges : CodeRanges) (c : Char) :
    ranges.contains c = true ↔ ∃ range ∈ ranges, range.1 ≤ c.toNat ∧ c.toNat ≤ range.2 := by
  simp [contains]

end CodeRanges

end BoxedValues
