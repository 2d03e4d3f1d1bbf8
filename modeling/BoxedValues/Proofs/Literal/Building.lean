import BoxedValues.Literal.Build
import BoxedValues.Proofs.Machine.Giving

/-!
# Literals on a heap

A value on the heap may be a copy of a literal (`Machine.Spells`): of the same kind everywhere, with
the same contents. The machine's own operations on values are those of literals then.

* `gives_build`: a literal is built as a copy of itself;
* `gives_element` and `gives_part`: elements and parts of copies are copies of elements and parts.
-/

set_option autoImplicit false

namespace BoxedValues

/-! ## Positions in related lists -/

namespace Position

variable {α β : Type} {R : α → β → Prop} {items : List α} {others : List β}

/-- Elements at one index are related, and so is what stands for them where there are none. -/
theorem rel_get? (h : List.Forall₂ R items others) {missing : α} {other : β} (both : R missing other)
    (index : Int64) : R ((get? items index).getD missing) ((get? others index).getD other) := by
  unfold get?
  rw [h.length_eq]
  cases index? index others.length with
  | none => exact both
  | some place =>
    simp only [Option.bind_some]
    by_cases inside : place < items.length
    · have inside' : place < others.length := h.length_eq ▸ inside
      rw [List.getElem?_eq_getElem inside, List.getElem?_eq_getElem inside']
      exact h.get inside inside'
    · have beyond := Nat.not_lt.1 inside
      rw [List.getElem?_eq_none beyond, List.getElem?_eq_none (h.length_eq ▸ beyond)]
      exact both

theorem forall₂_slice (h : List.Forall₂ R items others) (start stop : Int64) :
    List.Forall₂ R (slice items start stop) (slice others start stop) := by
  unfold slice
  rw [h.length_eq]
  cases range? start stop others.length with
  | none => exact .nil
  | some range => exact List.forall₂_take _ (List.forall₂_drop _ h)

/-- A slice that ends at or behind the last element ends there. -/
theorem rangeStop_of_le {start stop length : Int64} (nonneg : 0 ≤ stop) (beyond : length ≤ stop) :
    rangeStop start stop length = length := by
  simp only [rangeStop, if_neg (Int64.not_lt.2 nonneg)]
  by_cases before : stop < start
  · rw [if_pos before, if_pos (Int64.le_trans beyond (Int64.le_of_lt before))]
  · rw [if_neg before, if_pos beyond]

/-- The position behind the last element, as far as a machine word can tell. -/
def last (length : Nat) : Int64 := .ofNat (min length Int64.maxValue.toNatClampNeg)

/-- A slice up to the greatest position ends behind the last element. -/
theorem slice_maxValue (items : List α) (start : Int64) :
    slice items start Int64.maxValue = slice items start (last items.length) := by
  by_cases fits : items.length ≤ Int64.maxValue.toNatClampNeg
  · have same : last items.length = .ofNat items.length := by
      unfold last
      rw [Nat.min_eq_left fits]
    have nonneg : 0 ≤ Int64.ofNat items.length := by
      rw [Int64.le_iff_toInt_le, Int64.toInt_ofNat_of_lt (Nat.lt_of_le_of_lt fits (by decide))]
      exact Int.natCast_nonneg _
    have greatest : 0 ≤ Int64.maxValue := by decide
    simp only [slice, range?, same, rangeStop_of_le greatest (Int64.le_maxValue _),
      rangeStop_of_le nonneg (Int64.le_refl _)]
  · have same : last items.length = Int64.maxValue := by
      unfold last
      rw [Nat.min_eq_right (Nat.le_of_not_le fits), Int64.ofNat_toNatClampNeg _ (by decide)]
    rw [same]

end Position

namespace Machine

/-! ## Copies of literals -/

mutual

/-- The value is a copy of the literal, made of the shared values and boxes of the builtin types. -/
def Spells (machine : Machine) (heap : Heap) : Literal → Ref → Prop
  | .none, ref => ref = machine.noneValue ∧ heap.Holds ref ⟨machine.ids.none, .none⟩
  | .bool value, ref =>
    ref = machine.boolValue value ∧ heap.Holds ref ⟨machine.ids.bool, .bool value⟩
  | .int value, ref => heap.Holds ref ⟨machine.ids.int, .int value⟩
  | .float value, ref => heap.Holds ref ⟨machine.ids.float, .float value⟩
  | .string bytes, ref => heap.Holds ref ⟨machine.ids.string, .string bytes⟩
  | .array items, ref => ∃ refs, SpellsAll machine heap items refs ∧
      heap.Holds ref ⟨machine.ids.array, .array (.ofItems machine.noneValue refs)⟩

/-- The values are copies of the literals in order. -/
def SpellsAll (machine : Machine) (heap : Heap) : List Literal → List Ref → Prop
  | [], refs => refs = []
  | literal :: rest, refs =>
    ∃ ref others, refs = ref :: others ∧ Spells machine heap literal ref ∧
      SpellsAll machine heap rest others

end

variable {machine : Machine} {heap later : Heap} {state : State} {ref : Ref} {literal : Literal}

theorem spellsAll_iff {literals : List Literal} {refs : List Ref} :
    machine.SpellsAll heap literals refs ↔ List.Forall₂ (machine.Spells heap) literals refs := by
  induction literals generalizing refs with
  | nil => rw [SpellsAll, List.forall₂_nil_left_iff]
  | cons literal rest ih =>
    rw [SpellsAll, List.forall₂_cons_left_iff]
    constructor
    · rintro ⟨ref, others, rfl, first, further⟩
      exact ⟨ref, others, first, ih.1 further, rfl⟩
    · rintro ⟨ref, others, first, further, rfl⟩
      exact ⟨ref, others, rfl, first, ih.2 further⟩

mutual

/-- A copy stays one when there are more boxes. -/
theorem Spells.extends (literal : Literal) {ref : Ref} (h : machine.Spells heap literal ref)
    (grows : heap.Extends later) : machine.Spells later literal ref := by
  match literal with
  | .none => exact ⟨h.1, grows _ _ h.2⟩
  | .bool value => exact ⟨h.1, grows _ _ h.2⟩
  | .int value => exact grows _ _ h
  | .float value => exact grows _ _ h
  | .string bytes => exact grows _ _ h
  | .array items =>
    obtain ⟨refs, spelled, held⟩ := h
    exact ⟨refs, SpellsAll.extends items spelled grows, grows _ _ held⟩

theorem SpellsAll.extends (literals : List Literal) {refs : List Ref}
    (h : machine.SpellsAll heap literals refs) (grows : heap.Extends later) :
    machine.SpellsAll later literals refs := by
  match literals with
  | [] => exact h
  | literal :: rest =>
    obtain ⟨ref, others, same, first, further⟩ := h
    exact ⟨ref, others, same, Spells.extends literal first grows,
      SpellsAll.extends rest further grows⟩

end

theorem gives_alloc_spells {box : Box} {literal : Literal}
    (spells : ∀ {heap ref}, heap.Holds ref box → machine.Spells heap literal ref) :
    (Exec.alloc box).Gives state fun ref heap => machine.Spells heap literal ref :=
  (Exec.gives_alloc box state).mono fun _ _ held => spells held

/-- A new array of copies is a copy of the list. -/
theorem gives_newArray {literals : List Literal} {refs : List Ref}
    (spelled : machine.SpellsAll state.heap literals refs) :
    (machine.newArray refs).Gives state fun ref heap => machine.Spells heap (.array literals) ref := by
  obtain ⟨ref, after, ran, grows, held⟩ := Exec.gives_alloc
    ⟨machine.ids.array, .array (.ofItems machine.noneValue refs)⟩ state
  exact ⟨ref, after, ran, grows, refs, SpellsAll.extends literals spelled grows.heap, held⟩

mutual

/-- Building makes a copy of a literal. -/
theorem gives_build (literal : Literal) {state : State} (shares : machine.Shares state.heap) :
    (machine.build literal).Gives state fun ref heap => machine.Spells heap literal ref := by
  match literal with
  | .none => exact Exec.gives_pure ⟨rfl, shares.none⟩
  | .bool value => exact Exec.gives_pure ⟨rfl, shares.bool value⟩
  | .int value => exact gives_alloc_spells fun held => held
  | .float value => exact gives_alloc_spells fun held => held
  | .string bytes => exact gives_alloc_spells fun held => held
  | .array items =>
    exact (gives_buildAll items shares).bind fun refs after _ spelled => gives_newArray spelled

theorem gives_buildAll (literals : List Literal) {state : State}
    (shares : machine.Shares state.heap) :
    (machine.buildAll literals).Gives state fun refs heap =>
      machine.SpellsAll heap literals refs := by
  match literals with
  | [] => exact Exec.gives_pure rfl
  | literal :: rest =>
    apply (gives_build literal shares).bind
    intro ref middle grows first
    refine (gives_buildAll rest (shares.persists grows.heap.persists)).growing.bind ?_
    rintro refs after _ ⟨more, further⟩
    exact Exec.gives_pure ⟨ref, refs, rfl, Spells.extends literal first more, further⟩

end

/-! ## Looking into copies -/

section

variable {value : Ref} (spelled : machine.Spells state.heap literal value)

include spelled

/-- An element of a copy is a copy of the element. -/
theorem gives_element (shares : machine.Shares state.heap) {position : Int64} {result : Literal}
    (selected : literal.get? position = some result) :
    (machine.element value position).Gives state fun ref heap => machine.Spells heap result ref := by
  cases literal with
  | string bytes =>
    refine Exec.gives_bind_ok (Exec.payload_ok value state) ?_
    rw [Heap.Holds.get spelled]
    cases found : Position.get? bytes position with
    | some byte =>
      simp only [Literal.get?, found, Option.some.injEq] at selected
      subst selected
      simp only [found]
      exact gives_alloc_spells fun held => held
    | none =>
      simp only [Literal.get?, found, Option.some.injEq] at selected
      subst selected
      simp only [found]
      exact Exec.gives_pure ⟨rfl, shares.none⟩
  | array items =>
    obtain ⟨refs, spelledAll, held⟩ := spelled
    refine Exec.gives_bind_ok (Exec.payload_ok value state) ?_
    rw [held.get]
    simp only [Literal.get?, Option.some.injEq] at selected
    subst selected
    refine Exec.gives_pure ?_
    rw [Buffer.live_ofItems]
    have missing : machine.Spells state.heap .none machine.noneValue := ⟨rfl, shares.none⟩
    exact Position.rel_get? (spellsAll_iff.1 spelledAll) missing position
  | _ => cases selected

/-- A part of a copy is a copy of the part. -/
theorem gives_part {start stop : Int64} {result : Literal}
    (selected : literal.slice? start stop = some result) :
    (machine.part value start stop).Gives state fun ref heap => machine.Spells heap result ref := by
  cases literal with
  | string bytes =>
    refine Exec.gives_bind_ok (Exec.payload_ok value state) ?_
    rw [Heap.Holds.get spelled]
    cases selected
    exact gives_alloc_spells fun held => held
  | array items =>
    obtain ⟨refs, spelledAll, held⟩ := spelled
    refine Exec.gives_bind_ok (Exec.payload_ok value state) ?_
    rw [held.get]
    cases selected
    refine gives_newArray (spellsAll_iff.2 ?_)
    rw [Buffer.live_ofItems]
    exact Position.forall₂_slice (spellsAll_iff.1 spelledAll) start stop
  | _ => cases selected

end

end Machine

end BoxedValues
