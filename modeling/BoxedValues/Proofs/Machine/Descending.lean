import BoxedValues.Proofs.Machine.Nesting
import BoxedValues.Proofs.Text.Rendering

/-!
# Text, equality and hash go down to an end

Each of the three common methods of an array marks the array, or the pair of arrays, before it asks
for more; so do the arrays among the elements. `descends_text`, `descends_hash` and
`descends_equal` say this one level at a time, for values whose types have no methods of their own.

`structural_operations_end` is the result: the three operations return, whatever contains what, and
their calls are never nested deeper than there are arrays, or pairs of arrays, to mark.
-/

set_option autoImplicit false

namespace BoxedValues

namespace Heap

/-- The arrays that a value reaches. -/
noncomputable def arrays (heap : Heap) (value : Ref) : Finset Ref :=
  open Classical in heap.refs.filter fun ref =>
    heap.Reaches value ref ∧ ∃ buffer, (heap.get ref).payload = .array buffer

theorem mem_arrays {heap : Heap} {value ref : Ref} : ref ∈ heap.arrays value ↔
    ref ∈ heap.refs ∧ heap.Reaches value ref ∧ ∃ buffer, (heap.get ref).payload = .array buffer := by
  simp only [arrays, Finset.mem_filter]

theorem arrays_subset (heap : Heap) (value : Ref) : heap.arrays value ⊆ heap.refs :=
  fun _ mem => (mem_arrays.1 mem).1

end Heap

namespace Machine

open Exec

/-- Boxes of builtin types, and records of types without common methods. -/
def Methodless (machine : Machine) : Box → Prop := machine.Ordinary CommonMethod.all

/-- A value that `root` reaches on the heap from the beginning, all of which is still there. -/
structure Below (machine : Machine) (base : Heap) (root : Ref) (state : State) (value : Ref) :
    Prop where
  reaches : base.Reaches root value
  carries : base.Carries state.heap machine.Methodless value

variable {machine : Machine} {base : Heap} {root root' a b value item : Ref} {state after : State}
  {buffer other : Buffer} {invoke invoke' : Method → List Ref → Exec Ref}

namespace Below

variable (h : machine.Below base root state value)

include h

theorem grown (grows : state.heap.Extends after.heap) : machine.Below base root after value :=
  ⟨h.reaches, h.carries.extends grows⟩

variable (held : (state.heap.get value).payload = .array buffer)

include held

theorem held_base : (base.get value).payload = .array buffer := by
  rw [← h.carries.self.1]
  exact held

theorem of_mem (mem : item ∈ buffer.live) : machine.Below base root state item := by
  have listed : item ∈ base.items value := by rwa [Heap.items_of_array (h.held_base held)]
  exact ⟨h.reaches.tail listed, h.carries.of_mem listed⟩

theorem mem_arrays : value ∈ base.arrays root := by
  have found := h.held_base held
  exact Heap.mem_arrays.2 ⟨Heap.mem_refs_of_array found, h.reaches, buffer, found⟩

end Below

/-- What the type of a value answers a common method with. -/
theorem Below.entry (complete : machine.Complete) (h : machine.Below base root state value)
    (method : CommonMethod) :
    ∃ entry, machine.table.entry (state.heap.get value).typeId = .ok entry ∧
      (entry.common? method = none ∨
        ∃ type, entry.common? method = some (.builtin (.common type method))) := by
  obtain ⟨got, methodless⟩ := h.carries.self
  rw [got]
  obtain ⟨entry, found, answer⟩ := methodless.entry complete
    (show method ∈ CommonMethod.all by cases method <;> decide)
  refine ⟨entry, found, ?_⟩
  cases kind : (base.get value).payload.kind with
  | builtin type =>
    rw [kind] at answer
    exact .inr ⟨type, answer⟩
  | record =>
    rw [kind] at answer
    exact .inl answer

/-! ## Parts that call nothing -/

section

variable {α β : Type} {held : Accessor α} {next next' : α → Exec β} {rest : List Ref}

/-- A receiver of the wrong kind ends both. -/
theorem same_receiver
    (goesOn : ∀ content, held.get? (state.heap.get value).payload = some content →
      (next content).Same (next' content) state) :
    (Arguments.receiver held (value :: rest) >>= next).Same
      (Arguments.receiver held (value :: rest) >>= next') state := by
  cases found : held.get? (state.heap.get value).payload with
  | some content => exact same_bind_ok (Arguments.receiver_ok found) (goesOn content found)
  | none =>
    have failed : Arguments.receiver held (value :: rest) state =
        .error (.error (.wrongReceiver held.type.name (state.heap.get value).typeId)) state := by
      unfold Arguments.receiver
      rw [bind_ok (Arguments.given_zero state), bind_ok (box_ok value state), found]
      rfl
    exact ⟨state, .inr ⟨_, bind_error failed⟩, .refl state, by rw [bind_error failed, bind_error failed]⟩

theorem array_of_get? (h : Accessor.array.get? (state.heap.get value).payload = some buffer) :
    (state.heap.get value).payload = .array buffer := by
  cases held : (state.heap.get value).payload with
  | array found =>
    rw [held] at h
    cases h
    rfl
  | _ =>
    rw [held] at h
    cases h

end

/-! ## Texts -/

section

theorem same_texts {items : List Ref} (each : ∀ item ∈ items, ∀ after, state.Grows after →
      (Engine.textOf ⟨machine, invoke⟩ item).Same (Engine.textOf ⟨machine, invoke'⟩ item) after) :
    (Engine.texts ⟨machine, invoke⟩ items).Same (Engine.texts ⟨machine, invoke'⟩ items) state := by
  apply same_mapM items
  intro item mem after grows
  refine (each item mem after grows).bind fun ref last _ _ => ?_
  exact same_bind_ok (payload_ok ref last) (same_pure _)

variable (nested : ∀ state' item, machine.Below base root state' item →
  Deepens textMarks (base.arrays root) state.marks state'.marks →
    (Engine.textOf ⟨machine, invoke⟩ item).Same (Engine.textOf ⟨machine, invoke'⟩ item) state')
  (below : machine.Below base root state value)

include nested below

theorem same_arrayText (held : (state.heap.get value).payload = .array buffer) :
    (Engine.arrayText ⟨machine, invoke⟩ value buffer.live).Same
      (Engine.arrayText ⟨machine, invoke'⟩ value buffer.live) state := by
  unfold Engine.arrayText
  by_cases empty : buffer.live = []
  · rw [empty]
    exact same_alloc _
  rw [if_neg (mt List.isEmpty_iff.1 empty), if_neg (mt List.isEmpty_iff.1 empty)]
  have marked : (marking textMarks value (Engine.texts ⟨machine, invoke⟩ buffer.live)).Same
      (marking textMarks value (Engine.texts ⟨machine, invoke'⟩ buffer.live)) state := by
    refine same_marking lawful_textMarks fun fresh => same_texts fun item mem after grows => ?_
    exact nested after item ((below.of_mem held mem).grown grows.heap)
      (deepens_of_grows lawful_textMarks (below.mem_arrays held) fresh grows)
  refine marked.bind fun texts after _ ran => ?_
  cases texts with
  | none => exact same_alloc _
  | some texts =>
    obtain ⟨_, _, ran⟩ := of_marking_some ran
    have filled : texts ≠ [] := by
      rw [← List.length_pos_iff, length_of_mapM ran, List.length_pos_iff]
      exact empty
    show (Engine.newBracketed _ texts).Same (Engine.newBracketed _ texts) after
    rw [Engine.newBracketed_eq filled, Engine.newBracketed_eq filled]
    exact same_alloc _

theorem same_textMethod (type : BuiltinType) :
    (Engine.text ⟨machine, invoke⟩ type [value]).Same (Engine.text ⟨machine, invoke'⟩ type [value])
      state := by
  cases type with
  | none | bool => exact same_receiver fun _ _ => same_pure _
  | int | float => exact same_receiver fun _ _ => same_alloc _
  | string => exact same_receiver fun _ _ => same_of_ok (Arguments.given_zero state)
  | array =>
    refine same_receiver fun buffer found => ?_
    exact same_bind_ok (Arguments.given_zero state)
      (same_arrayText nested below (array_of_get? found))

end

/-- Texts are made one level at a time, with one more array marked on each. -/
theorem descends_text (complete : machine.Complete) (base : Heap) (root : Ref) :
    machine.Descends textMarks (base.arrays root) Engine.textOf .toText (fun value => [value])
      (machine.Below base root) where
  count _ := rfl
  dispatch {invoke invoke' state value} below run := by
    obtain ⟨entry, found, answer⟩ := below.entry complete .toText
    refine same_bind_ok (entryOf_ok found) ?_
    rcases answer with none | ⟨type, some⟩
    · rw [none]
      exact same_fail _
    · rw [some]
      refine (run type).bind fun ref after _ _ => ?_
      refine same_bind_ok (box_ok ref after) ?_
      split
      · exact same_pure _
      · exact same_fail _
  body below nested type := same_textMethod nested below type

/-! ## Hashes -/

section

variable (nested : ∀ state' item, machine.Below base root state' item →
  Deepens hashMarks (base.arrays root) state.marks state'.marks →
    (Engine.hashOf ⟨machine, invoke⟩ item).Same (Engine.hashOf ⟨machine, invoke'⟩ item) state')
  (below : machine.Below base root state value)

include nested below

theorem same_hashElements (held : (state.heap.get value).payload = .array buffer) :
    (Engine.hashElements ⟨machine, invoke⟩ value buffer.live).Same
      (Engine.hashElements ⟨machine, invoke'⟩ value buffer.live) state := by
  have marked : (marking hashMarks value (Engine.hashes ⟨machine, invoke⟩ buffer.live)).Same
      (marking hashMarks value (Engine.hashes ⟨machine, invoke'⟩ buffer.live)) state := by
    refine same_marking lawful_hashMarks fun fresh => ?_
    refine same_mapM _ fun item mem after grows => ?_
    exact nested after item ((below.of_mem held mem).grown grows.heap)
      (deepens_of_grows lawful_hashMarks (below.mem_arrays held) fresh grows)
  refine marked.bind fun hashes after _ _ => ?_
  cases hashes with
  | none => exact same_pure _
  | some hashes => exact same_pure _

theorem same_hashMethod (type : BuiltinType) :
    (Engine.hash ⟨machine, invoke⟩ type [value]).Same (Engine.hash ⟨machine, invoke'⟩ type [value])
      state := by
  cases type with
  | array =>
    refine same_receiver fun buffer found => ?_
    exact same_bind_ok (Arguments.given_zero state)
      (same_hashElements nested below (array_of_get? found))
  | _ => exact same_receiver fun _ _ => same_pure _

end

/-- Hashes are made one level at a time, with one more array marked on each. -/
theorem descends_hash (complete : machine.Complete) (base : Heap) (root : Ref) :
    machine.Descends hashMarks (base.arrays root) Engine.hashOf .hash (fun value => [value])
      (machine.Below base root) where
  count _ := rfl
  dispatch {invoke invoke' state value} below run := by
    obtain ⟨entry, found, answer⟩ := below.entry complete .hash
    refine same_bind_ok (entryOf_ok found) ?_
    rcases answer with none | ⟨type, some⟩
    · rw [none]
      exact same_pure _
    · rw [some]
      refine (run type).bind fun ref after _ _ => ?_
      refine same_bind_ok (box_ok ref after) ?_
      split
      · exact same_pure _
      · exact same_fail _
  body below nested type :=
    (same_hashMethod nested below type).bind fun _ _ _ _ => same_alloc _

/-! ## Equality -/

/-- Two values below two roots. -/
def PairBelow (machine : Machine) (base : Heap) (root root' : Ref) (state : State)
    (pair : Ref × Ref) : Prop :=
  machine.Below base root state pair.1 ∧ machine.Below base root' state pair.2

section

theorem same_equalPairs {pairs : List (Ref × Ref)}
    (each : ∀ pair ∈ pairs, ∀ after, state.Grows after →
      (Engine.areEqual ⟨machine, invoke⟩ pair.1 pair.2).Same
        (Engine.areEqual ⟨machine, invoke'⟩ pair.1 pair.2) after) :
    (Engine.equalPairs ⟨machine, invoke⟩ pairs).Same
      (Engine.equalPairs ⟨machine, invoke'⟩ pairs) state := by
  induction pairs generalizing state with
  | nil => exact same_pure true
  | cons pair pairs ih =>
    refine (each pair (.head pairs) state (.refl state)).bind fun verdict middle grows _ => ?_
    cases verdict with
    | false => exact same_pure false
    | true => exact ih fun pair mem after more => each pair (.tail _ mem) after (grows.trans more)

variable (nested : ∀ state' pair, machine.PairBelow base root root' state' pair →
  Deepens equalityMarks (base.arrays root ×ˢ base.arrays root') state.marks state'.marks →
    (Engine.areEqual ⟨machine, invoke⟩ pair.1 pair.2).Same
      (Engine.areEqual ⟨machine, invoke'⟩ pair.1 pair.2) state')
  (below : machine.Below base root state a) (below' : machine.Below base root' state b)

include nested below below'

theorem same_arraysEqual (held : (state.heap.get a).payload = .array buffer)
    (held' : (state.heap.get b).payload = .array other) :
    (Engine.arraysEqual ⟨machine, invoke⟩ a b buffer.live other.live).Same
      (Engine.arraysEqual ⟨machine, invoke'⟩ a b buffer.live other.live) state := by
  unfold Engine.arraysEqual
  refine Same.bind ?_ fun verdict after _ _ => same_pure _
  refine same_marking lawful_equalityMarks fun fresh => ?_
  split
  · exact same_pure false
  · refine same_equalPairs fun pair mem after grows => ?_
    obtain ⟨mem, mem'⟩ := List.of_mem_zip mem
    have keys := Finset.mk_mem_product (below.mem_arrays held) (below'.mem_arrays held')
    exact nested after pair ⟨(below.of_mem held mem).grown grows.heap,
      (below'.of_mem held' mem').grown grows.heap⟩
      (deepens_of_grows lawful_equalityMarks keys fresh grows)

theorem same_equalMethod (type : BuiltinType) :
    (Engine.equal ⟨machine, invoke⟩ type [a, b]).Same (Engine.equal ⟨machine, invoke'⟩ type [a, b])
      state := by
  have given : Arguments.given [a, b] 1 state = .ok b state := rfl
  have read := payload_ok b state
  cases type with
  | array =>
    refine same_receiver fun buffer found => same_bind_ok given (same_bind_ok read ?_)
    cases held' : (state.heap.get b).payload with
    | array other =>
      exact same_bind_ok (Arguments.given_zero state)
        (same_arraysEqual nested below below' (array_of_get? found) held')
    | _ => exact same_pure false
  | _ => exact same_receiver fun _ _ => same_bind_ok given (same_bind_ok read (same_pure _))

end

/-- Equality is found out one level at a time, with one more pair of arrays marked on each. -/
theorem descends_equal (complete : machine.Complete) (base : Heap) (root root' : Ref) :
    machine.Descends equalityMarks (base.arrays root ×ˢ base.arrays root')
      (fun engine pair => engine.areEqual pair.1 pair.2) .equal (fun pair => [pair.1, pair.2])
      (machine.PairBelow base root root') where
  count _ := rfl
  dispatch {invoke invoke' state pair} below run := by
    unfold Engine.areEqual
    split
    · exact same_pure true
    refine same_bind_ok (typeId_ok pair.1 state) (same_bind_ok (typeId_ok pair.2 state) ?_)
    split
    · exact same_pure false
    obtain ⟨entry, found, answer⟩ := below.1.entry complete .equal
    refine same_bind_ok (entryOf_ok found) ?_
    rcases answer with none | ⟨type, some⟩
    · rw [none]
      exact same_pure false
    · rw [some]
      refine (run type).bind fun ref after _ _ => ?_
      refine same_bind_ok (box_ok ref after) ?_
      split
      · exact same_pure _
      · exact same_fail _
  body below nested type :=
    (same_equalMethod nested below.1 below.2 type).bind fun _ _ _ _ => same_pure _

/-! ## The three operations end -/

/-- The operation returns, and its calls go down a well-founded order: it goes the same way on an
engine that cuts off every nested call which has not marked one more of the keys than the call
around it, and all calls that are nested deeper than there are keys without a mark, and one more. -/
structure Ends {α κ : Type} [DecidableEq κ] (machine : Machine) (state : State)
    (list : MarkList κ) (keys : Finset κ) (operation : Engine → Exec α) : Prop where
  returns : ∃ after, (machine.act operation).Returns state after
  founded : WellFounded fun inner outer => Deepens list keys outer inner
  nested : ∀ depth, unmarked keys (list.get state.marks) < depth →
    operation (machine.watched (Deepens list keys) depth) state = machine.act operation state

theorem ends_of_descends {α ι κ : Type} [DecidableEq κ] {list : MarkList κ} {keys : Finset κ}
    {operation : Engine → ι → Exec α} {method : CommonMethod} {args : ι → List Ref}
    {fits : State → ι → Prop} (h : machine.Descends list keys operation method args fits)
    {item : ι} (good : fits state item) (few : keys.card < machine.depth state) :
    machine.Ends state list keys fun engine => operation engine item := by
  have room' := (unmarked_le_card keys (list.get state.marks)).trans_lt few
  constructor
  · obtain ⟨after, returns, _, agree⟩ := same_watched h good room' room'
    refine ⟨after, ?_⟩
    unfold Returns
    rw [act_apply, agree]
    exact returns
  · exact wellFounded_deepens list keys
  · intro depth room
    obtain ⟨_, _, _, agree⟩ := same_watched h good room room'
    exact agree.symm

/-- **Structural operations end on cyclic data.** However arrays contain themselves or one another
and whatever is marked, the text, the hash and the equality of values without methods of their own
return. On the way each nested call has marked one more array that the value reaches, or one more
pair of arrays that the two values reach, so the calls are never nested deeper than there are such
arrays or pairs, and one more. -/
theorem structural_operations_end (complete : machine.Complete)
    (first : state.heap.Within machine.Methodless a)
    (second : state.heap.Within machine.Methodless b) :
    machine.Ends state textMarks (state.heap.arrays a) (·.textOf a) ∧
    machine.Ends state hashMarks (state.heap.arrays a) (·.hashOf a) ∧
    machine.Ends state equalityMarks (state.heap.arrays a ×ˢ state.heap.arrays b)
      (·.areEqual a b) := by
  have below : machine.Below state.heap a state a := ⟨Heap.reaches_self _ _, first.carries⟩
  have below' : machine.Below state.heap b state b := ⟨Heap.reaches_self _ _, second.carries⟩
  have arrays := Heap.arrays_subset state.heap a
  have few : (state.heap.arrays a).card < machine.depth state :=
    (Finset.card_le_card arrays).trans_lt (machine.card_refs_lt_depth (Nat.le_refl _))
  have fewPairs : (state.heap.arrays a ×ˢ state.heap.arrays b).card < machine.depth state :=
    (Finset.card_le_card (Finset.product_subset_product arrays (state.heap.arrays_subset b))).trans_lt
      (machine.card_pairs_lt_depth (Nat.le_refl _))
  refine ⟨?_, ?_, ?_⟩
  · exact ends_of_descends (descends_text complete state.heap a) below few
  · exact ends_of_descends (descends_hash complete state.heap a) below few
  · have both : machine.PairBelow state.heap a b state (a, b) := ⟨below, below'⟩
    exact ends_of_descends (descends_equal complete state.heap a b) both fewPairs

/-- They end on a ring of two compared with a ring of one, also inside the latter. -/
theorem structural_operations_end_rings :
    let inside : State := { ringState with marks := ⟨[⟨6⟩], [⟨6⟩], [(⟨6⟩, ⟨6⟩)]⟩ }
    bare.Ends inside textMarks (inside.heap.arrays ⟨7⟩) (·.textOf ⟨7⟩) ∧
    bare.Ends inside equalityMarks (inside.heap.arrays ⟨7⟩ ×ˢ inside.heap.arrays ⟨6⟩)
      (·.areEqual ⟨7⟩ ⟨6⟩) := by
  intro inside
  have first : inside.heap.Within bare.Methodless ⟨7⟩ :=
    (within_rings (by decide)).mono fun _ builtin => builtin.ordinary _
  have second : inside.heap.Within bare.Methodless ⟨6⟩ :=
    (within_rings (by decide)).mono fun _ builtin => builtin.ordinary _
  obtain ⟨text, _, equal⟩ := structural_operations_end live_ringState.complete first second
  exact ⟨text, equal⟩

end Machine

end BoxedValues
