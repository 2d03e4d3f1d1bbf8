import BoxedValues.Double.Basic
import BoxedValues.Heap.Buffer
import BoxedValues.Kind
import BoxedValues.Text.Utf8
import BoxedValues.TypeId

/-!
# The heap

Reference model of `Gc` and `Val`: `type_id`, `ptr_eq` (which is equality of references here),
`is_none` and the accessors `as_bool` to `as_instance` (`Payload.bool?` to `Payload.record?`).

Every value is a box: the identity of its type and a payload. Boxes are never removed, so a
reference stays valid, and two references are the same value exactly if they are equal. The type
identity of a box never changes; of the payloads only buffers and fields do.
-/

set_option autoImplicit false

namespace BoxedValues

/-- What a box holds besides its type identity. -/
inductive Payload where
  | none
  | bool (value : Bool)
  | int (value : Int64)
  | float (value : Double)
  | string (bytes : Bytes)
  | array (buffer : Buffer)
  | record (fields : List Ref)

namespace Payload

/-- The kind of a payload. -/
def kind : Payload → Kind
  | .none => .builtin .none
  | .bool _ => .builtin .bool
  | .int _ => .builtin .int
  | .float _ => .builtin .float
  | .string _ => .builtin .string
  | .array _ => .builtin .array
  | .record _ => .record

/-- Whether the payload is that of `None`. -/
def isNone : Payload → Bool
  | .none => true
  | _ => false

def bool? : Payload → Option Bool
  | .bool value => some value
  | _ => .none

def int? : Payload → Option Int64
  | .int value => some value
  | _ => .none

def float? : Payload → Option Double
  | .float value => some value
  | _ => .none

def string? : Payload → Option Bytes
  | .string bytes => some bytes
  | _ => .none

def array? : Payload → Option Buffer
  | .array buffer => some buffer
  | _ => .none

def record? : Payload → Option (List Ref)
  | .record fields => some fields
  | _ => .none

end Payload

/-- A value on the heap. -/
structure Box where
  typeId : TypeId
  payload : Payload

/-- All boxes, in the order in which they were made. -/
structure Heap where
  boxes : Array Box

namespace Heap

/-- The heap without boxes. -/
def empty : Heap := ⟨#[]⟩

/-- The number of boxes. -/
def size (heap : Heap) : Nat := heap.boxes.size

/-- What a reference beyond the heap reads as. -/
def nothing : Box := ⟨⟨0⟩, .none⟩

/-- The box at a reference. -/
def get (heap : Heap) (ref : Ref) : Box := heap.boxes[ref.index]?.getD nothing

/-- The reference of a new box, and the heap with it. -/
def alloc (heap : Heap) (box : Box) : Ref × Heap := (⟨heap.size⟩, ⟨heap.boxes.push box⟩)

/-- The heap with another payload in a box. -/
def setPayload (heap : Heap) (ref : Ref) (payload : Payload) : Heap :=
  ⟨heap.boxes.modify ref.index fun box => { box with payload }⟩

/-! ## What an operation does to a later reading -/

theorem alloc_ref (heap : Heap) (box : Box) : (heap.alloc box).1 = ⟨heap.size⟩ := rfl

theorem size_alloc (heap : Heap) (box : Box) : (heap.alloc box).2.size = heap.size + 1 := by
  simp [alloc, size]

/-- There is nothing beyond the heap. -/
theorem get_of_le {heap : Heap} {ref : Ref} (h : heap.size ≤ ref.index) : heap.get ref = nothing := by
  simp only [size] at h
  simp [get, h]

theorem get_alloc_self (heap : Heap) (box : Box) :
    (heap.alloc box).2.get (heap.alloc box).1 = box := by
  simp [alloc, get, size]

theorem get_alloc_of_lt (heap : Heap) (box : Box) {ref : Ref} (h : ref.index < heap.size) :
    (heap.alloc box).2.get ref = heap.get ref := by
  simp only [size] at h
  simp [alloc, get, Array.getElem?_push, Nat.ne_of_lt h]

theorem size_setPayload (heap : Heap) (ref : Ref) (payload : Payload) :
    (heap.setPayload ref payload).size = heap.size := by
  simp [setPayload, size]

theorem get_setPayload_of_ne (heap : Heap) {ref other : Ref} (payload : Payload)
    (h : other ≠ ref) : (heap.setPayload ref payload).get other = heap.get other := by
  have : ref.index ≠ other.index := fun e => h (by cases ref; cases other; simp_all)
  simp [setPayload, get, Array.getElem?_modify, this]

theorem get_setPayload_self (heap : Heap) {ref : Ref} (payload : Payload)
    (h : ref.index < heap.size) :
    (heap.setPayload ref payload).get ref = { heap.get ref with payload } := by
  simp only [size] at h
  simp [setPayload, get, h, Array.getElem_modify]

theorem setPayload_of_le (heap : Heap) {ref : Ref} (payload : Payload) (h : heap.size ≤ ref.index) :
    heap.setPayload ref payload = heap := by
  have same : heap.boxes.modify ref.index (fun box => { box with payload }) = heap.boxes := by
    apply Array.ext_getElem?
    intro index
    rw [Array.getElem?_modify]
    split
    · next place =>
      subst place
      simp only [size] at h
      simp [h]
    · rfl
  rw [setPayload, same]

end Heap

end BoxedValues
