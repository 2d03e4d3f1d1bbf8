/-!
# Argument counts

Reference model of `Arity` with its constructors `exactly` and `at_least`, `accepts` and its text.
The arity of a method is the range of argument counts that it accepts, the receiver included.
-/

set_option autoImplicit false

namespace BoxedValues

/-- The least and the greatest number of arguments. -/
structure Arity where
  min : Nat
  max : Nat
  deriving DecidableEq

namespace Arity

/-- The greatest count there is: a range up to it has no upper bound. -/
def unbounded : Nat := UInt64.size - 1

/-- Exactly `n` arguments. -/
def exactly (n : Nat) : Arity := ⟨n, n⟩

/-- `n` or more arguments. -/
def atLeast (n : Nat) : Arity := ⟨n, unbounded⟩

/-- Whether a number of arguments lies in the range. -/
def accepts (arity : Arity) (given : Nat) : Bool :=
  decide (arity.min ≤ given) && decide (given ≤ arity.max)

theorem accepts_iff (arity : Arity) (given : Nat) :
    arity.accepts given = true ↔ arity.min ≤ given ∧ given ≤ arity.max := by
  simp [accepts]

/-- An arity in messages. -/
def text (arity : Arity) : String :=
  if arity.min = arity.max then s!"{arity.min}"
  else if arity.max = unbounded then s!"at least {arity.min}"
  else s!"{arity.min} to {arity.max}"

instance : ToString Arity := ⟨text⟩

end Arity

end BoxedValues
