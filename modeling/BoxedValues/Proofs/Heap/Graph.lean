import BoxedValues.Proofs.Heap.Lasting
import Mathlib.Data.Finset.Card
import Mathlib.Data.Finset.Prod
import Mathlib.Logic.Relation

/-!
# The graph of arrays

Arrays refer to their elements and may thereby contain themselves, directly or through others. A
walk through such a graph ends because it marks what it enters.

* `Heap.Reaches` relates a value to itself, to its elements, to theirs, and so on;
* `Heap.Within` says that all that a value reaches is there and has some property;
* `Heap.Carries` says moreover that another heap has all of it, unchanged;
* `Heap.Mirrors` allows the other heap other things in the spare slots of arrays;
* `unmarked` counts what a walk has not entered yet; every mark makes it smaller
  (`unmarked_cons_lt`).
-/

set_option autoImplicit false

namespace BoxedValues

/-- The payloads are the same, but for what is in the spare slots of an array. -/
def Payload.Resembles : Payload → Payload → Prop
  | .array buffer, .array other => other.live = buffer.live
  | payload, other => other = payload

theorem Payload.Resembles.refl (payload : Payload) : payload.Resembles payload := by
  cases payload <;> rfl

namespace Heap

/-- The live elements of an array; none for other values. -/
def items (heap : Heap) (value : Ref) : List Ref :=
  match (heap.get value).payload with
  | .array buffer => buffer.live
  | _ => []

/-- One value contains the other, at any depth, or is the other. The fields of records do not
count. -/
def Reaches (heap : Heap) : Ref → Ref → Prop :=
  Relation.ReflTransGen fun holder item => item ∈ heap.items holder

/-- All that a value reaches is on the heap and has the property. -/
def Within (heap : Heap) (P : Box → Prop) (value : Ref) : Prop :=
  ∀ ref, heap.Reaches value ref → ∃ box, heap.Holds ref box ∧ P box

/-- All that a value reaches is on another heap as it is on this one, and has the property. -/
def Carries (base heap : Heap) (P : Box → Prop) (value : Ref) : Prop :=
  ∀ ref, base.Reaches value ref → ∃ box, base.Holds ref box ∧ heap.Holds ref box ∧ P box

/-- All that a value reaches is on both heaps, the same but for what is in spare slots. -/
def Mirrors (heap other : Heap) (value : Ref) : Prop :=
  ∀ ref, heap.Reaches value ref → ∃ box box', heap.Holds ref box ∧ other.Holds ref box' ∧
    box'.typeId = box.typeId ∧ box.payload.Resembles box'.payload

variable {base heap later : Heap} {value item : Ref} {P Q : Box → Prop}

theorem items_of_array {buffer : Buffer} (h : (heap.get value).payload = .array buffer) :
    heap.items value = buffer.live := by
  simp only [items, h]

theorem items_of_leaf (h : ∀ buffer, (heap.get value).payload ≠ .array buffer) :
    heap.items value = [] := by
  unfold items
  split
  · rename_i buffer held
    exact absurd held (h buffer)
  · rfl

theorem reaches_self (heap : Heap) (value : Ref) : heap.Reaches value value := .refl

theorem Reaches.of_item {ref : Ref} (mem : item ∈ heap.items value) (h : heap.Reaches item ref) :
    heap.Reaches value ref := .head mem h

/-- A value without elements reaches itself only. -/
theorem Reaches.eq_of_items_nil {ref : Ref} (h : heap.Reaches value ref)
    (none : heap.items value = []) : ref = value := by
  rcases h.cases_head with same | ⟨item, mem, _⟩
  · exact same.symm
  · rw [none] at mem
    cases mem

theorem Within.of_reaches {ref : Ref} (h : heap.Within P value) (reaches : heap.Reaches value ref) :
    heap.Within P ref := fun _ further => h _ (reaches.trans further)

theorem Within.mono (h : heap.Within P value) (implies : ∀ box, P box → Q box) :
    heap.Within Q value := by
  intro ref reaches
  obtain ⟨box, held, property⟩ := h ref reaches
  exact ⟨box, held, implies box property⟩

/-- References that refer only to each other and have the property reach only values that have
it. -/
theorem within_of_closed {S : Ref → Prop} (held : ∀ ref, S ref → ∃ box, heap.Holds ref box ∧ P box)
    (closed : ∀ ref, S ref → ∀ item ∈ heap.items ref, S item) (h : S value) :
    heap.Within P value := by
  intro ref reaches
  refine held ref ?_
  induction reaches with
  | refl => exact h
  | tail _ mem ih => exact closed _ ih _ mem

theorem within_of_items_nil {box : Box} (none : heap.items value = []) (held : heap.Holds value box)
    (property : P box) : heap.Within P value := by
  intro ref reaches
  rw [reaches.eq_of_items_nil none]
  exact ⟨box, held, property⟩

/-- A heap has all that its own values reach. -/
theorem Within.carries (h : heap.Within P value) : heap.Carries heap P value := by
  intro ref reaches
  obtain ⟨box, held, property⟩ := h ref reaches
  exact ⟨box, held, held, property⟩

theorem Carries.self (h : base.Carries heap P value) : heap.get value = base.get value ∧
    P (base.get value) := by
  obtain ⟨box, before, held, property⟩ := h value (reaches_self base value)
  rw [held.get, before.get]
  exact ⟨rfl, property⟩

theorem Carries.within (h : base.Carries heap P value) : base.Within P value := by
  intro ref reaches
  obtain ⟨box, before, _, property⟩ := h ref reaches
  exact ⟨box, before, property⟩

theorem Carries.of_mem (h : base.Carries heap P value) (mem : item ∈ base.items value) :
    base.Carries heap P item := fun ref reaches => h ref (.of_item mem reaches)

/-- Of a value without elements only its own property counts. -/
theorem Carries.of_items_nil (h : base.Carries heap P value) (none : base.items value = [])
    (property : Q (base.get value)) : base.Carries heap Q value := by
  intro ref reaches
  rw [reaches.eq_of_items_nil none]
  obtain ⟨box, before, held, _⟩ := h value (reaches_self base value)
  exact ⟨box, before, held, by rwa [before.get] at property⟩

theorem Carries.mono (h : base.Carries heap P value) (implies : ∀ box, P box → Q box) :
    base.Carries heap Q value := by
  intro ref reaches
  obtain ⟨box, before, held, property⟩ := h ref reaches
  exact ⟨box, before, held, implies box property⟩

theorem Carries.extends (h : base.Carries heap P value) (grows : heap.Extends later) :
    base.Carries later P value := by
  intro ref reaches
  obtain ⟨box, before, held, property⟩ := h ref reaches
  exact ⟨box, before, grows ref box held, property⟩

/-- A heap mirrors its own values. -/
theorem Within.mirrors (h : heap.Within P value) : heap.Mirrors heap value := by
  intro ref reaches
  obtain ⟨box, held, _⟩ := h ref reaches
  exact ⟨box, box, held, held, rfl, .refl box.payload⟩

theorem Carries.mirrors (h : base.Carries heap P value) : base.Mirrors heap value := by
  intro ref reaches
  obtain ⟨box, before, held, _⟩ := h ref reaches
  exact ⟨box, box, before, held, rfl, .refl box.payload⟩

theorem Mirrors.self {other : Heap} (h : heap.Mirrors other value) :
    (heap.get value).payload.Resembles (other.get value).payload := by
  obtain ⟨box, box', held, held', _, resembles⟩ := h value (reaches_self heap value)
  rwa [held.get, held'.get]

theorem Mirrors.of_mem {other : Heap} (h : heap.Mirrors other value)
    (mem : item ∈ heap.items value) : heap.Mirrors other item :=
  fun ref reaches => h ref (.of_item mem reaches)

theorem items_of_resembles {other : Heap}
    (h : (heap.get value).payload.Resembles (other.get value).payload) :
    other.items value = heap.items value := by
  unfold items
  unfold Payload.Resembles at h
  split at h
  · rename_i buffer buffer' held held'
    rw [held, held']
    exact h
  · rw [h]

theorem Mirrors.items {other : Heap} (h : heap.Mirrors other value) :
    other.items value = heap.items value := items_of_resembles h.self

/-- What a value reaches is the same on both heaps. -/
theorem Mirrors.reaches {other : Heap} (h : heap.Mirrors other value) {ref : Ref}
    (reaches : other.Reaches value ref) : heap.Reaches value ref := by
  induction reaches with
  | refl => exact .refl
  | tail _ mem ih =>
    obtain ⟨box, box', held, held', _, resembles⟩ := h _ ih
    rw [← held.get, ← held'.get] at resembles
    rw [items_of_resembles resembles] at mem
    exact .tail ih mem

/-- A property of the type and the kind of boxes that one heap has of all that a value reaches. -/
theorem Mirrors.within {other : Heap} (h : heap.Mirrors other value) (within : heap.Within P value)
    (same : ∀ box box' : Box, box'.typeId = box.typeId → box'.payload.kind = box.payload.kind →
      P box → P box') : other.Within P value := by
  intro ref reaches
  obtain ⟨box, box', held, held', typeId, resembles⟩ := h ref (h.reaches reaches)
  obtain ⟨found, heldFound, property⟩ := within ref (h.reaches reaches)
  rw [← heldFound.get, held.get] at property
  refine ⟨box', held', same box box' typeId ?_ property⟩
  unfold Payload.Resembles at resembles
  split at resembles
  · rename_i held held'
    rw [held, held']
    rfl
  · rw [resembles]

end Heap

/-! ## Counting what is not marked -/

/-- How many of the given keys carry no mark. -/
def unmarked {κ : Type} [DecidableEq κ] (all : Finset κ) (marks : List κ) : Nat :=
  (all.filter fun key => key ∉ marks).card

section

variable {κ : Type} [DecidableEq κ] {all : Finset κ} {marks : List κ} {key : κ}

theorem unmarked_le_card (all : Finset κ) (marks : List κ) : unmarked all marks ≤ all.card :=
  Finset.card_filter_le _ _

/-- A new mark leaves fewer keys without one. -/
theorem unmarked_cons_lt (mem : key ∈ all) (fresh : key ∉ marks) :
    unmarked all (key :: marks) < unmarked all marks := by
  apply Finset.card_lt_card
  constructor
  · intro other h
    simp only [Finset.mem_filter, List.mem_cons, not_or] at h ⊢
    exact ⟨h.1, h.2.2⟩
  · intro sub
    have marked := sub (Finset.mem_filter.2 ⟨mem, fresh⟩)
    simp at marked

end

namespace Heap

/-- The references of all boxes. -/
def refs (heap : Heap) : Finset Ref := (Finset.range heap.size).image Ref.mk

/-- All pairs of references. -/
def pairs (heap : Heap) : Finset (Ref × Ref) := heap.refs ×ˢ heap.refs

variable {heap : Heap} {value other : Ref}

theorem mem_refs : value ∈ heap.refs ↔ value.index < heap.size := by
  simp only [refs, Finset.mem_image, Finset.mem_range]
  constructor
  · rintro ⟨index, h, rfl⟩
    exact h
  · intro h
    exact ⟨value.index, h, rfl⟩

theorem mem_refs_of_array {buffer : Buffer} (h : (heap.get value).payload = .array buffer) :
    value ∈ heap.refs :=
  mem_refs.2 (lt_size_of_array h)

theorem mem_pairs_of_arrays {buffer others : Buffer}
    (h : (heap.get value).payload = .array buffer)
    (h' : (heap.get other).payload = .array others) : (value, other) ∈ heap.pairs :=
  Finset.mem_product.2 ⟨mem_refs_of_array h, mem_refs_of_array h'⟩

theorem card_refs_le (heap : Heap) : heap.refs.card ≤ heap.size := by
  have := Finset.card_image_le (s := Finset.range heap.size) (f := Ref.mk)
  rwa [Finset.card_range] at this

theorem card_pairs_le (heap : Heap) : heap.pairs.card ≤ heap.size * heap.size := by
  rw [pairs, Finset.card_product]
  exact Nat.mul_le_mul heap.card_refs_le heap.card_refs_le

end Heap

end BoxedValues
