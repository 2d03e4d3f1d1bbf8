import BoxedValues.Proofs.Machine.Framing

/-!
# What stays on the heap

A reference holds a box (`Heap.Holds`) if the box was made and is still there. Two relations say
how a later heap keeps the boxes of an earlier one.

* `Heap.Extends`: every box is as it was, and there may be new ones;
* `Heap.Persists`: every box keeps its type and its kind, and only arrays and records may hold
  something else. Everything that a machine does keeps this relation (`frame_persists`).

The marks are in turn as they were (`frame_marks`): each one that is set is taken off again.
-/

set_option autoImplicit false

namespace BoxedValues

/-- Whether the payload of a box can be replaced. -/
def Kind.isMutable : Kind → Bool
  | .builtin .array => true
  | .record => true
  | _ => false

namespace Heap

/-- The heap has a box at the reference, and it is this one. -/
def Holds (heap : Heap) (ref : Ref) (box : Box) : Prop := heap.boxes[ref.index]? = some box

variable {heap before middle after : Heap} {ref other : Ref} {box : Box}

theorem Holds.get (h : heap.Holds ref box) : heap.get ref = box := by
  unfold Holds at h
  simp only [Heap.get, h, Option.getD_some]

theorem Holds.lt (h : heap.Holds ref box) : ref.index < heap.size :=
  (Array.getElem?_eq_some_iff.1 h).1

theorem holds_get (h : ref.index < heap.size) : heap.Holds ref (heap.get ref) := by
  unfold Holds Heap.get
  rw [Array.getElem?_eq_getElem h]
  rfl

/-- Only `None` is read where the heap has no box. -/
theorem lt_size_of_payload (h : (heap.get ref).payload ≠ .none) : ref.index < heap.size := by
  by_cases inside : ref.index < heap.size
  · exact inside
  · refine absurd ?_ h
    have beyond : heap.boxes[ref.index]? = none := Array.getElem?_eq_none (Nat.not_lt.1 inside)
    simp [Heap.get, beyond, nothing]

theorem lt_size_of_array {buffer : Buffer} (h : (heap.get ref).payload = .array buffer) :
    ref.index < heap.size := lt_size_of_payload (by rw [h]; exact Payload.noConfusion)

theorem holds_alloc (heap : Heap) (box : Box) : (heap.alloc box).2.Holds ⟨heap.size⟩ box := by
  simp [Holds, alloc, size]

theorem Holds.alloc (h : heap.Holds ref box) (new : Box) : (heap.alloc new).2.Holds ref box := by
  have inside := h.lt
  unfold Holds at *
  simp only [Heap.alloc, size, Array.getElem?_push] at *
  rw [if_neg (Nat.ne_of_lt inside), h]

/-- The heap with a new box has no others that are new. -/
theorem holds_alloc_iff {new : Box} :
    (heap.alloc new).2.Holds ref box ↔ heap.Holds ref box ∨ ref = ⟨heap.size⟩ ∧ box = new := by
  constructor
  · intro h
    by_cases inside : ref.index < heap.size
    · left
      rw [← h.get, get_alloc_of_lt heap new inside]
      exact holds_get inside
    · have bound := h.lt
      rw [size_alloc] at bound
      have place : ref = ⟨heap.size⟩ := by
        cases ref
        simp only [Ref.mk.injEq] at *
        omega
      subst place
      exact .inr ⟨rfl, by rw [← h.get]; exact (holds_alloc heap new).get⟩
  · rintro (h | ⟨rfl, rfl⟩)
    · exact h.alloc new
    · exact holds_alloc heap box

/-- The heap with another payload has only that one in place of an old one. -/
theorem Holds.of_setPayload {payload : Payload} (h : (heap.setPayload ref payload).Holds other box) :
    heap.Holds other box ∨ box.payload = payload := by
  have inside : other.index < heap.size := by
    have bound := h.lt
    rwa [size_setPayload] at bound
  by_cases same : other = ref
  · subst same
    right
    rw [← h.get, get_setPayload_self heap payload inside]
  · left
    rw [← h.get, get_setPayload_of_ne heap payload same]
    exact holds_get inside

/-! ## Heaps that grow -/

/-- Every box of the one heap is in the other, unchanged. -/
def Extends (before after : Heap) : Prop :=
  ∀ ref box, before.Holds ref box → after.Holds ref box

theorem Extends.refl (heap : Heap) : heap.Extends heap := fun _ _ h => h

theorem Extends.trans (first : before.Extends middle) (second : middle.Extends after) :
    before.Extends after := fun ref box h => second ref box (first ref box h)

theorem extends_alloc (heap : Heap) (box : Box) : heap.Extends (heap.alloc box).2 :=
  fun _ _ h => h.alloc box

theorem extends_append (heap : Heap) (boxes : Array Box) : heap.Extends ⟨heap.boxes ++ boxes⟩ :=
  fun _ _ h => (Array.getElem?_append_left h.lt).trans h

/-! ## Heaps that change -/

/-- The boxes that one box may be replaced by: of the same type and kind, and the box itself unless
it is an array or a record. -/
structure Becomes (old new : Box) : Prop where
  typeId : new.typeId = old.typeId
  kind : new.payload.kind = old.payload.kind
  fixed : old.payload.kind.isMutable = false → new = old

theorem Becomes.refl (box : Box) : Becomes box box := ⟨rfl, rfl, fun _ => rfl⟩

theorem Becomes.trans {first second third : Box} (h : Becomes first second)
    (h' : Becomes second third) : Becomes first third where
  typeId := h'.typeId.trans h.typeId
  kind := h'.kind.trans h.kind
  fixed immutable := by
    have same := h.fixed immutable
    subst same
    exact h'.fixed immutable

/-- Every box of the one heap is in the other, perhaps with other contents. -/
def Persists (before after : Heap) : Prop :=
  ∀ ref box, before.Holds ref box → ∃ new, after.Holds ref new ∧ Becomes box new

theorem Persists.refl (heap : Heap) : heap.Persists heap :=
  fun _ box h => ⟨box, h, .refl box⟩

theorem Persists.trans (first : before.Persists middle) (second : middle.Persists after) :
    before.Persists after := by
  intro ref box h
  obtain ⟨between, held, becomes⟩ := first ref box h
  obtain ⟨last, heldLast, becomesLast⟩ := second ref between held
  exact ⟨last, heldLast, becomes.trans becomesLast⟩

theorem Extends.persists (h : before.Extends after) : before.Persists after :=
  fun ref box held => ⟨box, h ref box held, .refl box⟩

theorem Persists.size_le (h : before.Persists after) : before.size ≤ after.size := by
  by_cases none : before.size = 0
  · omega
  · obtain ⟨_, last, _⟩ := h ⟨before.size - 1⟩ _ (holds_get (by simp only; omega))
    have := last.lt
    simp only at this
    omega

theorem Extends.size_le (h : before.Extends after) : before.size ≤ after.size :=
  h.persists.size_le

/-- A box that is neither an array nor a record stays as it is. -/
theorem Persists.holds (h : before.Persists after) (held : before.Holds ref box)
    (immutable : box.payload.kind.isMutable = false) : after.Holds ref box := by
  obtain ⟨new, heldNew, becomes⟩ := h ref box held
  rwa [becomes.fixed immutable] at heldNew

theorem persists_setPayload {payload : Payload} (kind : payload.kind = (heap.get ref).payload.kind)
    (mutable : payload.kind.isMutable = true) : heap.Persists (heap.setPayload ref payload) := by
  intro other box h
  by_cases same : ref = other
  · subst same
    have inside := h.lt
    have got := h.get
    refine ⟨{ box with payload }, ?_, rfl, ?_, fun immutable => ?_⟩
    · have held : (heap.setPayload ref payload).Holds ref ((heap.setPayload ref payload).get ref) :=
        holds_get (by rw [size_setPayload]; exact inside)
      rwa [get_setPayload_self heap payload inside, got] at held
    · rw [kind, got]
    · rw [kind, got, immutable] at mutable
      cases mutable
  · refine ⟨box, ?_, .refl box⟩
    have apart : ref.index ≠ other.index := fun e => same (by cases ref; cases other; simp_all)
    unfold Holds at *
    simp only [setPayload, Array.getElem?_modify, if_neg apart, h]

end Heap

/-! ## The two frames -/

/-- Whatever returns, every box has kept its type and its kind. -/
theorem frame_persists : Frame fun before after => before.heap.Persists after.heap where
  refl state := .refl state.heap
  trans h h' := h.trans h'
  alloc state box _ := (Heap.extends_alloc state.heap box).persists
  push state ref buffer filler item held :=
    Heap.persists_setPayload (by rw [held]; rfl) rfl
  store state ref buffer changed index item held _ :=
    Heap.persists_setPayload (by rw [held]; rfl) rfl
  field state ref fields index item held _ :=
    Heap.persists_setPayload (by rw [held]; rfl) rfl
  write state _ := .refl state.heap
  marking _ _ _ _ _ h := h

/-- Whatever returns, the marks are those from before. -/
theorem frame_marks : Frame fun before after => after.marks = before.marks where
  refl _ := rfl
  trans h h' := h'.trans h
  alloc _ _ _ := rfl
  push _ _ _ _ _ _ := rfl
  store _ _ _ _ _ _ _ _ := rfl
  field _ _ _ _ _ _ _ := rfl
  write _ _ := rfl
  marking lawful key before after _ h := by
    simp only at h ⊢
    rw [h, lawful.get_set, List.erase_cons_head, lawful.set_set, lawful.set_get]

end BoxedValues
