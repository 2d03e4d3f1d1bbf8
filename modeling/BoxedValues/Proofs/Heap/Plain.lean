import BoxedValues.Method.Program
import BoxedValues.Proofs.Machine.Coupling

/-!
# Heaps whose arrays are plain lists

What programs see of a heap is a list of sights, one for each box: its type and its view. In it an
array is the list of its elements and a number, how many it has room for; there are no slots and no
length apart from the list's own. `Heap.plain` forgets the rest, and the lemmas of this module say
what becomes of it when a heap changes.

The arrays of a heap have room for their elements (`Heap.Roomy`). Then a push appends to the list
and a store into a slot replaces the element there, if there is one.
-/

set_option autoImplicit false

namespace BoxedValues

/-! ## Plain lists -/

/-- The elements of an array, and how many it has room for. -/
@[ext]
structure PlainArray where
  items : List Ref
  capacity : Nat

namespace PlainArray

/-- An array of the given elements. One without elements has room for one. -/
def ofItems (items : List Ref) : PlainArray := ⟨items, max 1 items.length⟩

/-- An array of `length` fillers with room for `capacity` elements. -/
def filled (filler : Ref) (length capacity : Nat) : PlainArray :=
  ⟨.replicate length filler, max capacity length⟩

/-- An array with one more element. If it was full, it has room for twice as many. -/
def append (array : PlainArray) (item : Ref) : PlainArray where
  items := array.items ++ [item]
  capacity :=
    if array.items.length = array.capacity then max (2 * array.items.length) 1 else array.capacity

/-- An array with another element at a position. -/
def replace (array : PlainArray) (index : Nat) (item : Ref) : PlainArray :=
  { array with items := array.items.set index item }

/-- What is seen of an array. -/
def view (array : PlainArray) : View := .array array.items array.capacity

end PlainArray

namespace Buffer

/-- The list that a buffer stands for, with its capacity. -/
def plain (buffer : Buffer) : PlainArray := ⟨buffer.live, buffer.capacity⟩

theorem plain_ofItems (filler : Ref) (items : List Ref) :
    (ofItems filler items).plain = .ofItems items := by
  simp only [plain, live_ofItems, capacity_ofItems, PlainArray.ofItems]

theorem plain_filled (filler : Ref) (length capacity : Nat) :
    (filled filler length capacity).plain = .filled filler length capacity := by
  simp only [plain, live_filled, capacity_filled, PlainArray.filled]

theorem plain_push (filler : Ref) {buffer : Buffer} (item : Ref)
    (room : buffer.length ≤ buffer.capacity) :
    (buffer.push filler item).plain = buffer.plain.append item := by
  simp only [plain, live_push filler item room, capacity_push, PlainArray.append, length_live room]

theorem plain_set? {buffer changed : Buffer} {index : Nat} {item : Ref}
    (stored : buffer.set? index item = some changed) :
    changed.plain = buffer.plain.replace index item := by
  simp only [plain, live_set? stored, capacity_set? stored, PlainArray.replace]

end Buffer

/-! ## Plain heaps -/

/-- What a program can see of a box. -/
structure Sight where
  typeId : TypeId
  view : View

/-- The visible part of a box. -/
def Box.sight (box : Box) : Sight := ⟨box.typeId, box.payload.view⟩

/-- What a program can see of all values, in the order in which they were made. -/
abbrev PlainHeap := List Sight

namespace PlainHeap

variable (plain : PlainHeap)

/-- The array at a reference. -/
def array? (ref : Ref) : Option PlainArray :=
  match plain[ref.index]? with
  | some ⟨_, .array items capacity⟩ => some ⟨items, capacity⟩
  | _ => none

/-- The heap with another view of a value. -/
def put (ref : Ref) (view : View) : PlainHeap :=
  plain.modify ref.index fun sight => { sight with view }

/-- The reference of a new value, and the heap with it. -/
def make (sight : Sight) : Ref × PlainHeap := (⟨plain.length⟩, plain ++ [sight])

/-- One change of what can be seen: a new value, an element appended or replaced, or a field. -/
inductive Change : PlainHeap → PlainHeap → Prop where
  | make (plain : PlainHeap) (sight : Sight) : Change plain (plain.make sight).2
  | append {plain : PlainHeap} {ref : Ref} {array : PlainArray} (item : Ref) :
      plain.array? ref = some array → Change plain (plain.put ref (array.append item).view)
  | replace {plain : PlainHeap} {ref : Ref} {array : PlainArray} {index : Nat} (item : Ref) :
      plain.array? ref = some array → index < array.items.length →
        Change plain (plain.put ref (array.replace index item).view)
  | field {plain : PlainHeap} {ref : Ref} {type : TypeId} {fields : List Ref} {index : Nat}
      (item : Ref) : plain[ref.index]? = some ⟨type, .record fields⟩ → index < fields.length →
        Change plain (plain.put ref (.record (fields.set index item)))

variable {plain} {ref : Ref} {sight : Sight} {array : PlainArray}

/-- Putting what was there changes nothing. -/
theorem put_self (held : plain[ref.index]? = some sight) : plain.put ref sight.view = plain := by
  apply List.ext_getElem?
  intro index
  rw [put, List.getElem?_modify]
  by_cases same : ref.index = index
  · subst same
    rw [held]
    simp
  · simp [same]

theorem array?_eq_some_iff :
    plain.array? ref = some array ↔ ∃ type, plain[ref.index]? = some ⟨type, array.view⟩ := by
  unfold array?
  split
  · rename_i type items capacity held
    simp [held, PlainArray.view, PlainArray.ext_iff]
  · rename_i other
    constructor
    · nofun
    · rintro ⟨type, held⟩
      exact absurd held (other type array.items array.capacity)

/-- Replacing nothing changes nothing. -/
theorem put_replace_of_le (held : plain.array? ref = some array) {index : Nat} (item : Ref)
    (beyond : array.items.length ≤ index) : plain.put ref (array.replace index item).view = plain := by
  obtain ⟨type, seen⟩ := array?_eq_some_iff.1 held
  rw [PlainArray.replace, List.set_eq_of_length_le beyond]
  exact put_self seen

end PlainHeap

namespace Heap

/-- What a program can see of the heap. -/
def plain (heap : Heap) : PlainHeap := heap.boxes.toList.map Box.sight

/-- All arrays have room for their elements. -/
def Roomy (heap : Heap) : Prop := ∀ ref, (heap.get ref).payload.Roomy

variable {heap : Heap} {ref : Ref} {buffer : Buffer}

theorem length_plain (heap : Heap) : heap.plain.length = heap.size := by
  simp [plain, size]

theorem getElem?_plain (heap : Heap) (index : Nat) :
    heap.plain[index]? = heap.boxes[index]?.map Box.sight := by
  simp [plain]

theorem getElem?_plain_of_payload {payload : Payload} (held : (heap.get ref).payload = payload)
    (present : payload ≠ .none) :
    heap.plain[ref.index]? = some ⟨(heap.get ref).typeId, payload.view⟩ := by
  have inside := lt_size_of_payload (held.symm ▸ present)
  rw [getElem?_plain, holds_get inside, ← held]
  rfl

theorem array?_plain (held : (heap.get ref).payload = .array buffer) :
    heap.plain.array? ref = some buffer.plain :=
  PlainHeap.array?_eq_some_iff.2 ⟨_, getElem?_plain_of_payload held nofun⟩

/-- What is seen as an array is one. -/
theorem exists_of_array?_plain {array : PlainArray} (seen : heap.plain.array? ref = some array) :
    ∃ buffer, (heap.get ref).payload = .array buffer ∧ buffer.plain = array := by
  obtain ⟨type, seen⟩ := PlainHeap.array?_eq_some_iff.1 seen
  rw [getElem?_plain, Option.map_eq_some_iff] at seen
  obtain ⟨box, held, same⟩ := seen
  have got : heap.get ref = box := Holds.get held
  simp only [Box.sight, Sight.mk.injEq] at same
  cases payload : box.payload with
  | array buffer =>
    rw [payload] at same
    simp only [Payload.view, PlainArray.view, View.array.injEq] at same
    exact ⟨buffer, by rw [got, payload], PlainArray.ext same.2.1 same.2.2⟩
  | _ =>
    rw [payload] at same
    obtain ⟨_, ⟨⟩⟩ := same

theorem plain_alloc (heap : Heap) (box : Box) :
    (heap.alloc box).2.plain = (heap.plain.make box.sight).2 := by
  simp [plain, alloc, PlainHeap.make]

theorem plain_setPayload (heap : Heap) (ref : Ref) (payload : Payload) :
    (heap.setPayload ref payload).plain = heap.plain.put ref payload.view := by
  apply List.ext_getElem?
  intro index
  rw [PlainHeap.put, List.getElem?_modify, getElem?_plain, getElem?_plain]
  simp only [setPayload, Array.getElem?_modify]
  by_cases same : ref.index = index
  · simp only [same, if_pos]
    cases heap.boxes[index]? <;> rfl
  · simp only [same, if_false]
    cases heap.boxes[index]? <;> rfl

/-- A push appends to the list. -/
theorem plain_push (roomy : heap.Roomy) (held : (heap.get ref).payload = .array buffer)
    (filler item : Ref) : (heap.setPayload ref (.array (buffer.push filler item))).plain =
      heap.plain.put ref (buffer.plain.append item).view := by
  rw [plain_setPayload, ← Buffer.plain_push filler item (roomy ref buffer held)]
  rfl

/-- A store replaces the element in the slot, if there is one. -/
theorem plain_store {changed : Buffer} {index : Nat} {item : Ref}
    (stored : buffer.set? index item = some changed) :
    (heap.setPayload ref (.array changed)).plain =
      heap.plain.put ref (buffer.plain.replace index item).view := by
  rw [plain_setPayload, ← Buffer.plain_set? stored]
  rfl

/-! ## Arrays have room for their elements -/

theorem Roomy.alloc (roomy : heap.Roomy) (box : Box) (room : box.payload.Roomy) :
    (heap.alloc box).2.Roomy := by
  intro ref
  rcases Nat.lt_trichotomy ref.index heap.size with inside | new | beyond
  · rw [get_alloc_of_lt heap box inside]
    exact roomy ref
  · have same : ref = (heap.alloc box).1 := by
      cases ref
      exact congrArg Ref.mk new
    rw [same, get_alloc_self]
    exact room
  · rw [get_of_le (by rw [size_alloc]; exact beyond)]
    nofun

theorem Roomy.setPayload (roomy : heap.Roomy) (ref : Ref) {payload : Payload}
    (room : payload.Roomy) : (heap.setPayload ref payload).Roomy := by
  intro other
  by_cases same : other = ref
  · subst same
    by_cases inside : other.index < heap.size
    · rw [get_setPayload_self heap payload inside]
      exact room
    · rw [setPayload_of_le heap payload (Nat.not_lt.1 inside)]
      exact roomy other
  · rw [get_setPayload_of_ne heap payload same]
    exact roomy other

theorem Roomy.push (roomy : heap.Roomy) (held : (heap.get ref).payload = .array buffer)
    (filler item : Ref) : (heap.setPayload ref (.array (buffer.push filler item))).Roomy := by
  refine roomy.setPayload ref ?_
  rintro _ ⟨⟩
  exact Buffer.length_le_capacity_push filler item (roomy ref buffer held)

theorem Roomy.store (roomy : heap.Roomy) (held : (heap.get ref).payload = .array buffer)
    {changed : Buffer} {index : Nat} {item : Ref} (stored : buffer.set? index item = some changed) :
    (heap.setPayload ref (.array changed)).Roomy := by
  refine roomy.setPayload ref ?_
  rintro _ ⟨⟩
  rw [Buffer.length_set? stored, Buffer.capacity_set? stored]
  exact roomy ref buffer held

end Heap

end BoxedValues
