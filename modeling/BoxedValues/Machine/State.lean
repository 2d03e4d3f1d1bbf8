import BoxedValues.Heap.Basic
import BoxedValues.Machine.Sink
import BoxedValues.MachineError

/-!
# The state of a machine, and actions on it

Reference model of the fields of `Runtime` that change, of `guarded` (`Exec.marking`) with its uses
`guard_hash` and `guard_eq`, and of the writing in `println` by way of `with_output` (`Exec.write`).

What changes while methods run: the heap, the sink, and the marks on arrays whose text, hash or
equality is being worked out. An action (`Exec`) ends with a result, with an error, or is cut off by
a fault; whatever it did before stays done.
-/

set_option autoImplicit false

namespace BoxedValues

/-- The arrays that are being gone through, innermost first. -/
structure Marks where
  /-- The arrays whose text is being made. -/
  text : List Ref
  /-- The arrays whose hash is being made. -/
  hash : List Ref
  /-- The pairs of arrays that are being compared. -/
  equality : List (Ref × Ref)

/-- No marks at all. -/
def Marks.none : Marks := ⟨[], [], []⟩

/-- The changing part of a machine. -/
structure State where
  heap : Heap
  marks : Marks
  sink : Sink

/-- How an action ends without a result. -/
inductive Fault where
  /-- An ordinary error, which callers can handle. -/
  | error (reason : MachineError)
  /-- A store into a slot that an array does not have. -/
  | storeBeyondCapacity (index capacity : Nat)
  /-- An argument was read that was not given. -/
  | missingArgument (index : Nat)
  /-- The size of a text was reckoned to be below zero. -/
  | sizeBelowZero
  /-- A text has another size than was reckoned. -/
  | sizeMiscalculated (written reckoned : Nat)
  /-- Calls were nested too deeply. -/
  | depthExceeded
  deriving DecidableEq

/-- The message of a fault. -/
def Fault.message : Fault → String
  | .error reason => reason.message
  | .storeBeyondCapacity index capacity =>
    s!"array store at {index} is beyond capacity {capacity}"
  | .missingArgument index => s!"argument {index} was not given"
  | .sizeBelowZero => "attempt to subtract with overflow"
  | .sizeMiscalculated written reckoned =>
    "assertion `left == right` failed: array repr size was miscalculated\n" ++
      s!"  left: {written}\n right: {reckoned}"
  | .depthExceeded => "calls are nested too deeply"

/-- An action on the state of a machine. -/
abbrev Exec := EStateM Fault State

namespace Exec

/-- End with an error. -/
def fail {α : Type} (error : MachineError) : Exec α := throw (.error error)

/-- The result of a pure step that can fail. -/
def ofExcept {α : Type} : Except MachineError α → Exec α
  | .ok result => pure result
  | .error error => fail error

/-- Run an action and hand its error over as a result; faults still cut it off. -/
def attempt {α : Type} (action : Exec α) : Exec (Except MachineError α) := fun state =>
  match action state with
  | .ok result state => .ok (.ok result) state
  | .error (.error error) state => .ok (.error error) state
  | .error fault state => .error fault state

/-! ## The heap -/

/-- The box of a value. -/
def box (value : Ref) : Exec Box := fun state => .ok (state.heap.get value) state

/-- The payload of a value. -/
def payload (value : Ref) : Exec Payload := return (← box value).payload

/-- The type identity of a value. -/
def typeId (value : Ref) : Exec TypeId := return (← box value).typeId

/-- A new box. -/
def alloc (box : Box) : Exec Ref := fun state =>
  let (ref, heap) := state.heap.alloc box
  .ok ref { state with heap }

/-- Replace the payload of a box. -/
def setPayload (value : Ref) (payload : Payload) : Exec Unit := fun state =>
  .ok () { state with heap := state.heap.setPayload value payload }

/-! ## Marks -/

/-- One of the three lists of marks: how it is read and how it is replaced. -/
structure MarkList (κ : Type) where
  get : Marks → List κ
  set : List κ → Marks → Marks

/-- The marks on arrays whose text is being made. -/
def textMarks : MarkList Ref := ⟨Marks.text, fun list marks => { marks with text := list }⟩

/-- The marks on arrays whose hash is being made. -/
def hashMarks : MarkList Ref := ⟨Marks.hash, fun list marks => { marks with hash := list }⟩

/-- The marks on pairs of arrays that are being compared. -/
def equalityMarks : MarkList (Ref × Ref) :=
  ⟨Marks.equality, fun list marks => { marks with equality := list }⟩

/-- Run `body` with a mark on `key`, or not at all if it is marked already. The mark is taken off
again whether the body has a result or an error; a fault leaves it. -/
def marking {κ α : Type} [DecidableEq κ] (list : MarkList κ) (key : κ) (body : Exec α) :
    Exec (Option α) := fun state =>
  if key ∈ list.get state.marks then .ok none state
  else
    let release (state : State) : State :=
      { state with marks := list.set ((list.get state.marks).erase key) state.marks }
    match body { state with marks := list.set (key :: list.get state.marks) state.marks } with
    | .ok result state => .ok (some result) (release state)
    | .error (.error error) state => .error (.error error) (release state)
    | .error fault state => .error fault state

/-! ## Output -/

/-- Offer the pieces of a line to the sink and flush it. What the sink refuses is an error. -/
def write (pieces : List Bytes) : Exec Unit := fun state =>
  match state.sink.offerLine pieces with
  | (none, sink) => .ok () { state with sink }
  | (some reason, sink) => .error (.error (.outputRefused reason)) { state with sink }

end Exec

end BoxedValues
