/-!
# Growable buffers

Reference model of the storage of `Array`: `from_slots`, `len`, `capacity`, `to_vec`, `set` and
`push`. An array's storage is a fixed number of slots, of which the first `length` are live. The
slots beyond them are spare; they hold something, but nothing reads them before a push has
overwritten them.

* `Buffer.live` is the list that a buffer stands for;
* `Buffer.push` appends to it, doubling the capacity of a full buffer;
* `Buffer.set?` stores into any slot, live or spare.
-/

set_option autoImplicit false

namespace BoxedValues

/-- The place of a box in the heap. -/
structure Ref where
  index : Nat
  deriving DecidableEq

/-- Slots of which the first `length` are live. -/
structure Buffer where
  slots : Array Ref
  length : Nat

namespace Buffer

/-- The number of slots. -/
def capacity (buffer : Buffer) : Nat := buffer.slots.size

/-- The live elements in order. -/
def live (buffer : Buffer) : List Ref := buffer.slots.toList.take buffer.length

/-- A buffer of the given elements. A buffer of no elements has one spare slot. -/
def ofItems (filler : Ref) (items : List Ref) : Buffer :=
  ⟨if items.isEmpty then #[filler] else items.toArray, items.length⟩

/-- A buffer of `length` live fillers with room for `capacity` elements. -/
def filled (filler : Ref) (length capacity : Nat) : Buffer :=
  ⟨.replicate (max capacity length) filler, length⟩

/-- The buffer with another value in a slot, if it has that slot. -/
def set? (buffer : Buffer) (index : Nat) (item : Ref) : Option Buffer :=
  if h : index < buffer.slots.size then some { buffer with slots := buffer.slots.set index item h }
  else none

/-- The slots with a spare one for the next element: a full buffer doubles its capacity, and one
without slots gets its first. -/
def grown (filler : Ref) (buffer : Buffer) : Array Ref :=
  if buffer.length = buffer.slots.size then
    buffer.slots ++ Array.replicate (max (2 * buffer.length) 1 - buffer.slots.size) filler
  else buffer.slots

/-- The buffer with one more live element. -/
def push (filler : Ref) (buffer : Buffer) (item : Ref) : Buffer :=
  ⟨(buffer.grown filler).setIfInBounds buffer.length item, buffer.length + 1⟩

/-! ## The list that a buffer stands for -/

theorem length_live {buffer : Buffer} (h : buffer.length ≤ buffer.capacity) :
    buffer.live.length = buffer.length := by
  simp only [live, List.length_take, Array.length_toList]
  exact Nat.min_eq_left h

theorem live_ofItems (filler : Ref) (items : List Ref) : (ofItems filler items).live = items := by
  cases items with
  | nil => rfl
  | cons item items => simp [ofItems, live]

theorem capacity_ofItems (filler : Ref) (items : List Ref) :
    (ofItems filler items).capacity = max 1 items.length := by
  cases items with
  | nil => rfl
  | cons item items =>
    show (item :: items).toArray.size = _
    rw [List.size_toArray, List.length_cons]
    omega

theorem live_filled (filler : Ref) (length capacity : Nat) :
    (filled filler length capacity).live = List.replicate length filler := by
  simp only [filled, live, Array.toList_replicate, List.take_replicate]
  rw [Nat.min_eq_left (Nat.le_max_right capacity length)]

theorem capacity_filled (filler : Ref) (length capacity : Nat) :
    (filled filler length capacity).capacity = max capacity length := by
  simp [filled, Buffer.capacity]

theorem length_set? {buffer changed : Buffer} {index : Nat} {item : Ref}
    (h : buffer.set? index item = some changed) : changed.length = buffer.length := by
  simp only [set?] at h
  split at h
  · cases h
    rfl
  · cases h

theorem capacity_set? {buffer changed : Buffer} {index : Nat} {item : Ref}
    (h : buffer.set? index item = some changed) : changed.capacity = buffer.capacity := by
  simp only [set?] at h
  split at h
  · cases h
    simp [capacity]
  · cases h

/-- A store into a live slot replaces that element; a store into a spare slot is out of sight. -/
theorem live_set? {buffer changed : Buffer} {index : Nat} {item : Ref}
    (h : buffer.set? index item = some changed) :
    changed.live = buffer.live.set index item := by
  simp only [set?] at h
  split at h
  · cases h
    simp only [live, Array.toList_set]
    exact List.take_set
  · cases h

theorem set?_eq_none_iff {buffer : Buffer} {index : Nat} {item : Ref} :
    buffer.set? index item = none ↔ buffer.capacity ≤ index := by
  simp only [set?, capacity]
  split
  · simp; omega
  · simp; omega

/-- A full buffer doubles its capacity. -/
theorem capacity_push (filler : Ref) (buffer : Buffer) (item : Ref) :
    (buffer.push filler item).capacity =
      if buffer.length = buffer.capacity then max (2 * buffer.length) 1 else buffer.capacity := by
  have size : (buffer.push filler item).capacity = (buffer.grown filler).size :=
    Array.size_setIfInBounds
  rw [size, grown]
  by_cases full : buffer.length = buffer.slots.size
  · rw [if_pos full, if_pos (show buffer.length = buffer.capacity from full), Array.size_append,
      Array.size_replicate]
    omega
  · rw [if_neg full, if_neg (show ¬buffer.length = buffer.capacity from full)]
    rfl

/-- A push leaves room for the new element. -/
theorem length_lt_size_grown (filler : Ref) {buffer : Buffer}
    (h : buffer.length ≤ buffer.capacity) : buffer.length < (buffer.grown filler).size := by
  simp only [grown, capacity] at *
  split
  · simp only [Array.size_append, Array.size_replicate]
    omega
  · omega

theorem take_grown (filler : Ref) {buffer : Buffer} (h : buffer.length ≤ buffer.capacity) :
    (buffer.grown filler).toList.take buffer.length = buffer.live := by
  simp only [grown, live, capacity] at *
  split
  · rw [Array.toList_append, List.take_append_of_le_length (by simpa using h)]
  · rfl

/-- A push appends to the list that the buffer stands for. -/
theorem live_push (filler : Ref) {buffer : Buffer} (item : Ref)
    (h : buffer.length ≤ buffer.capacity) :
    (buffer.push filler item).live = buffer.live ++ [item] := by
  have room := length_lt_size_grown filler h
  have room' : buffer.length < ((buffer.grown filler).toList.set buffer.length item).length := by
    simpa using room
  simp only [push, live, Array.toList_setIfInBounds]
  rw [List.take_succ_eq_append_getElem room', List.getElem_set_self, List.take_set]
  rw [List.set_eq_of_length_le (List.length_take_le _ _), take_grown filler h]
  rfl

theorem length_le_capacity_push (filler : Ref) {buffer : Buffer} (item : Ref)
    (h : buffer.length ≤ buffer.capacity) :
    (buffer.push filler item).length ≤ (buffer.push filler item).capacity := by
  have := length_lt_size_grown filler h
  simp only [push, capacity, Array.size_setIfInBounds]
  omega

end Buffer

end BoxedValues
