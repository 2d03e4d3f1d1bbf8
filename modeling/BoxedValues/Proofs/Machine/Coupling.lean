import BoxedValues.Proofs.Heap.Lasting

/-!
# Two runs side by side

Programs see the elements of an array and how many it has room for, but never what is in its spare
slots. Two states that differ in nothing else are twins (`State.Twin`). This module is about running
one action from both.

* `Coupling S` asks that `S` relates twins only, and holds again after whatever adds to the heap,
  changes marks or prints; a `FreeCoupling` also respects changes of arrays and records;
* `Exec.InUnison S R` says that two actions, run from states related by `S`, end alike: both with
  results related by `R` or both with the same fault, and in states related by `S`. Errors and
  faults count as well. An action is steady (`Exec.Steady`) if it ends with equal results.

With `S` on the diagonal this is about one run, and says what holds in the state in which it ends,
however it ends.
-/

set_option autoImplicit false

namespace BoxedValues

/-! ## Twins -/

/-- The buffers differ at most in what is in their spare slots. -/
structure Buffer.Twin (buffer other : Buffer) : Prop where
  length : other.length = buffer.length
  capacity : other.capacity = buffer.capacity
  live : other.live = buffer.live

/-- The payloads differ at most in spare slots. -/
def Payload.Twin : Payload → Payload → Prop
  | .array buffer, .array other => buffer.Twin other
  | payload, other => other = payload

/-- The boxes differ at most in spare slots. -/
structure Box.Twin (box other : Box) : Prop where
  typeId : other.typeId = box.typeId
  payload : box.payload.Twin other.payload

/-- The states differ at most in spare slots. -/
structure State.Twin (state other : State) : Prop where
  size : other.heap.size = state.heap.size
  box : ∀ ref, (state.heap.get ref).Twin (other.heap.get ref)
  marks : other.marks = state.marks
  sink : other.sink = state.sink

namespace Buffer.Twin

variable {buffer other changed changed' : Buffer} {filler item : Ref} {index : Nat}

theorem refl (buffer : Buffer) : buffer.Twin buffer := ⟨rfl, rfl, rfl⟩

/-- Stores go through in both buffers or in neither. -/
theorem set?_isSome (h : buffer.Twin other) (index : Nat) (item item' : Ref) :
    (other.set? index item').isSome = (buffer.set? index item).isSome := by
  rw [Bool.eq_iff_iff, Option.isSome_iff_ne_none, Option.isSome_iff_ne_none, ne_eq, ne_eq,
    set?_eq_none_iff, set?_eq_none_iff, h.capacity]

theorem set (h : buffer.Twin other) (stored : buffer.set? index item = some changed)
    (stored' : other.set? index item = some changed') : changed.Twin changed' := by
  refine ⟨?_, ?_, ?_⟩
  · rw [length_set? stored, length_set? stored', h.length]
  · rw [capacity_set? stored, capacity_set? stored', h.capacity]
  · rw [live_set? stored, live_set? stored', h.live]

/-- What is stored into a spare slot is out of sight. -/
theorem set_spare (h : buffer.Twin other) {item' : Ref} (spare : buffer.live.length ≤ index)
    (stored : buffer.set? index item = some changed)
    (stored' : other.set? index item' = some changed') : changed.Twin changed' := by
  refine ⟨?_, ?_, ?_⟩
  · rw [length_set? stored, length_set? stored', h.length]
  · rw [capacity_set? stored, capacity_set? stored', h.capacity]
  · rw [live_set? stored, live_set? stored', h.live, List.set_eq_of_length_le spare,
      List.set_eq_of_length_le spare]

theorem push (h : buffer.Twin other) :
    (buffer.push filler item).Twin (other.push filler item) := by
  by_cases room : buffer.length ≤ buffer.capacity
  · have room' : other.length ≤ other.capacity := by rwa [h.length, h.capacity]
    refine ⟨?_, ?_, ?_⟩
    · simp only [Buffer.push, h.length]
    · rw [capacity_push, capacity_push, h.length, h.capacity]
    · rw [live_push filler item room, live_push filler item room', h.live]
  · -- All slots of a buffer without room are live, so there is nothing to differ in.
    have same : other = buffer := by
      have length := h.length
      have capacity := h.capacity
      have live := h.live
      simp only [Buffer.capacity, Buffer.live] at room capacity live
      rw [List.take_of_length_le (by simp; omega), List.take_of_length_le (by simp; omega)] at live
      cases buffer
      cases other
      simp_all [Array.toList_inj]
    rw [same]
    exact .refl _

end Buffer.Twin

theorem Payload.Twin.refl (payload : Payload) : payload.Twin payload := by
  cases payload with
  | array buffer => exact Buffer.Twin.refl buffer
  | _ => rfl

namespace Payload.Twin

variable {payload other : Payload}

/-- Only arrays differ. -/
theorem eq_or_array (h : payload.Twin other) :
    other = payload ∨ ∃ buffer buffer', payload = .array buffer ∧ other = .array buffer' ∧
      buffer.Twin buffer' := by
  cases payload with
  | array buffer =>
    cases other with
    | array buffer' => exact .inr ⟨buffer, buffer', rfl, rfl, h⟩
    | _ => exact .inl h
  | _ => exact .inl h

/-- A program sees no difference. -/
theorem view (h : payload.Twin other) : other.view = payload.view := by
  rcases h.eq_or_array with rfl | ⟨buffer, buffer', rfl, rfl, twin⟩
  · rfl
  · simp only [Payload.view, twin.live, twin.capacity]

theorem isNone (h : payload.Twin other) : other.isNone = payload.isNone := by
  rcases h.eq_or_array with rfl | ⟨buffer, buffer', rfl, rfl, _⟩ <;> rfl

theorem bool? (h : payload.Twin other) : other.bool? = payload.bool? := by
  rcases h.eq_or_array with rfl | ⟨buffer, buffer', rfl, rfl, _⟩ <;> rfl

theorem int? (h : payload.Twin other) : other.int? = payload.int? := by
  rcases h.eq_or_array with rfl | ⟨buffer, buffer', rfl, rfl, _⟩ <;> rfl

theorem float? (h : payload.Twin other) : other.float? = payload.float? := by
  rcases h.eq_or_array with rfl | ⟨buffer, buffer', rfl, rfl, _⟩ <;> rfl

theorem string? (h : payload.Twin other) : other.string? = payload.string? := by
  rcases h.eq_or_array with rfl | ⟨buffer, buffer', rfl, rfl, _⟩ <;> rfl

end Payload.Twin

theorem Box.Twin.refl (box : Box) : box.Twin box := ⟨rfl, .refl box.payload⟩

theorem State.Twin.refl (state : State) : state.Twin state := ⟨rfl, fun _ => .refl _, rfl, rfl⟩

/-! ## Couplings -/

/-- The array has room for its elements. -/
def Payload.Roomy (payload : Payload) : Prop :=
  ∀ buffer, payload = .array buffer → buffer.length ≤ buffer.capacity

/-- Whether the payload is one of the three that exist once on a machine. -/
def Payload.isSingle : Payload → Bool
  | .none => true
  | .bool _ => true
  | _ => false

/-- What a machine makes new boxes of: nothing that exists once, and arrays with room for their
elements. -/
structure Payload.Made (payload : Payload) : Prop where
  roomy : payload.Roomy
  isSingle : payload.isSingle = false

/-- A relation between twins that holds again after both states got the same new box, the same
marks or the same sink. -/
structure Coupling (S : State → State → Prop) : Prop where
  twin : ∀ {state other}, S state other → state.Twin other
  alloc : ∀ {state other} box, S state other → box.payload.Made →
    S { state with heap := (state.heap.alloc box).2 } { other with heap := (other.heap.alloc box).2 }
  marks : ∀ {state other} marks, S state other → S { state with marks } { other with marks }
  sink : ∀ {state other} sink, S state other → S { state with sink } { other with sink }

/-- A coupling that also respects changes of arrays and records, made in both states. -/
structure FreeCoupling (S : State → State → Prop) : Prop extends Coupling S where
  push : ∀ {state other ref buffer buffer'} filler item, S state other →
    (state.heap.get ref).payload = .array buffer → (other.heap.get ref).payload = .array buffer' →
      S { state with heap := state.heap.setPayload ref (.array (buffer.push filler item)) }
        { other with heap := other.heap.setPayload ref (.array (buffer'.push filler item)) }
  store : ∀ {state other ref buffer buffer' changed changed' index item}, S state other →
    (state.heap.get ref).payload = .array buffer → (other.heap.get ref).payload = .array buffer' →
      buffer.set? index item = some changed → buffer'.set? index item = some changed' →
        S { state with heap := state.heap.setPayload ref (.array changed) }
          { other with heap := other.heap.setPayload ref (.array changed') }
  field : ∀ {state other ref fields index} item, S state other →
    (state.heap.get ref).payload = .record fields → (other.heap.get ref).payload = .record fields →
      index < fields.length →
        S { state with heap := state.heap.setPayload ref (.record (fields.set index item)) }
          { other with heap := other.heap.setPayload ref (.record (fields.set index item)) }

namespace Exec

variable {α β κ : Type} {S : State → State → Prop} {R : α → α → Prop} {Q : β → β → Prop}

/-! ## Ending alike -/

/-- Both actions ended with related results or with the same fault, and in related states. -/
inductive EndsAlike (S : State → State → Prop) (R : α → α → Prop) :
    EStateM.Result Fault State α → EStateM.Result Fault State α → Prop where
  | ok {result result' : α} {after after' : State} :
      R result result' → S after after' → EndsAlike S R (.ok result after) (.ok result' after')
  | error (fault : Fault) {after after' : State} :
      S after after' → EndsAlike S R (.error fault after) (.error fault after')

/-- From related states the actions end alike. -/
def InUnison (S : State → State → Prop) (R : α → α → Prop) (action action' : Exec α) : Prop :=
  ∀ state other, S state other → EndsAlike S R (action state) (action' other)

/-- From related states the action ends with equal results, or with the same fault. -/
def Steady (S : State → State → Prop) (action : Exec α) : Prop := InUnison S Eq action action

theorem unison_pure {result result' : α} (h : R result result') :
    InUnison S R (pure result) (pure result') := fun _ _ related => .ok h related

theorem unison_throw (fault : Fault) : InUnison S R (throw fault) (throw fault) :=
  fun _ _ related => .error fault related

theorem InUnison.bind {action action' : Exec α} {next next' : α → Exec β}
    (first : InUnison S R action action')
    (rest : ∀ result result', R result result' → InUnison S Q (next result) (next' result')) :
    InUnison S Q (action >>= next) (action' >>= next') := by
  intro state other related
  generalize one : action state = ended
  generalize two : action' other = ended'
  have alike := first state other related
  rw [one, two] at alike
  cases alike with
  | ok same related =>
    rw [bind_ok one, bind_ok two]
    exact rest _ _ same _ _ related
  | error fault related =>
    rw [bind_error one, bind_error two]
    exact .error fault related

theorem steady_pure (result : α) : Steady S (pure result : Exec α) := unison_pure rfl

theorem steady_throw (fault : Fault) : Steady S (throw fault : Exec α) := unison_throw fault

theorem steady_fail (error : MachineError) : Steady S (fail error : Exec α) := steady_throw _

theorem steady_ofExcept (outcome : Except MachineError α) : Steady S (ofExcept outcome) := by
  cases outcome with
  | ok result => exact steady_pure result
  | error error => exact steady_fail error

theorem Steady.bind {action : Exec α} {next next' : α → Exec β} (first : Steady S action)
    (rest : ∀ result, InUnison S Q (next result) (next' result)) :
    InUnison S Q (action >>= next) (action >>= next') := by
  refine InUnison.bind first ?_
  rintro result _ rfl
  exact rest result

theorem steady_mapM {f : α → Exec β} (items : List α) (each : ∀ item ∈ items, Steady S (f item)) :
    Steady S (items.mapM f) := by
  induction items with
  | nil => exact steady_pure []
  | cons item items ih =>
    rw [List.mapM_cons]
    apply (each item (.head items)).bind
    intro _
    exact (ih fun item mem => each item (.tail _ mem)).bind fun _ => steady_pure _

theorem steady_attempt {action : Exec α} (h : Steady S action) : Steady S (attempt action) := by
  intro state other related
  have alike := h state other related
  unfold attempt
  generalize action state = ended at alike ⊢
  generalize action other = ended' at alike ⊢
  cases alike with
  | ok same related => exact .ok (congrArg _ same) related
  | error fault related =>
    cases fault with
    | error error => exact .ok rfl related
    | _ => exact .error _ related

section

variable (coupling : Coupling S)

include coupling

/-! ## The heap -/

theorem unison_box (value : Ref) : InUnison S Box.Twin (box value) (box value) :=
  fun _ _ related => .ok ((coupling.twin related).box value) related

/-- What follows only has to be steady if it does not look into arrays. -/
theorem steady_bind_box (value : Ref) {next : Box → Exec α}
    (blind : ∀ type buffer buffer', next ⟨type, .array buffer⟩ = next ⟨type, .array buffer'⟩)
    (rest : ∀ box, Steady S (next box)) : Steady S (box value >>= next) := by
  refine (unison_box coupling value).bind ?_
  rintro ⟨type, payload⟩ ⟨type', payload'⟩ ⟨types, payloads⟩
  dsimp only at types payloads
  subst types
  rcases payloads.eq_or_array with rfl | ⟨buffer, buffer', rfl, rfl, _⟩
  · exact rest _
  · rw [blind type' buffer' buffer]
    exact rest _

theorem unison_payload (value : Ref) : InUnison S Payload.Twin (payload value) (payload value) :=
  (unison_box coupling value).bind fun _ _ twin => unison_pure twin.payload

theorem steady_typeId (value : Ref) : Steady S (typeId value) :=
  (unison_box coupling value).bind fun _ _ twin => unison_pure twin.typeId.symm

theorem steady_bytesOf (value : Ref) : Steady S (bytesOf value) := by
  refine (unison_payload coupling value).bind fun payload other twin => unison_pure ?_
  rw [twin.string?]

theorem steady_alloc (box : Box) (made : box.payload.Made) : Steady S (alloc box) := by
  intro state other related
  have same : (⟨state.heap.size⟩ : Ref) = ⟨other.heap.size⟩ := by
    rw [(coupling.twin related).size]
  exact .ok same (coupling.alloc box related made)

/-! ## Marks and output -/

theorem steady_marking [DecidableEq κ] (list : MarkList κ) (key : κ) {body : Exec α}
    (h : Steady S body) : Steady S (marking list key body) := by
  intro state other related
  have marks := (coupling.twin related).marks
  unfold marking
  rw [marks]
  by_cases marked : key ∈ list.get state.marks
  · rw [if_pos marked, if_pos marked]
    exact .ok rfl related
  rw [if_neg marked, if_neg marked]
  have alike := h _ _ (coupling.marks (list.set (key :: list.get state.marks) state.marks) related)
  generalize body { state with marks := _ } = ended at alike ⊢
  generalize body { other with marks := _ } = ended' at alike ⊢
  have release {after after' : State} (related : S after after') :
      S { after with marks := list.set ((list.get after.marks).erase key) after.marks }
        { after' with marks := list.set ((list.get after'.marks).erase key) after'.marks } := by
    rw [(coupling.twin related).marks]
    exact coupling.marks _ related
  cases alike with
  | ok same related => exact .ok (congrArg some same) (release related)
  | error fault related =>
    cases fault with
    | error error => exact .error _ (release related)
    | _ => exact .error _ related

theorem steady_write (pieces : List Bytes) : Steady S (write pieces) := by
  intro state other related
  unfold write
  rw [(coupling.twin related).sink]
  split
  · exact .ok rfl (coupling.sink _ related)
  · exact .error _ (coupling.sink _ related)

end

/-! ## Changes -/

section

variable (coupling : FreeCoupling S)

include coupling

theorem steady_push (machine : Machine) (array item : Ref) : Steady S (machine.push array item) := by
  intro state other related
  have twin := ((coupling.twin related).box array).payload
  unfold Machine.push
  rw [bind_ok (payload_ok array state), bind_ok (payload_ok array other)]
  rcases twin.eq_or_array with same | ⟨buffer, buffer', held, held', _⟩
  · rw [same]
    cases held : (state.heap.get array).payload with
    | array buffer => exact .ok rfl (coupling.push _ item related held (same.trans held))
    | _ => exact .ok rfl related
  · rw [held, held']
    exact .ok rfl (coupling.push _ item related held held')

theorem steady_setSlot (array : Ref) (index : Nat) (item : Ref) :
    Steady S (setSlot array index item) := by
  intro state other related
  have twin := ((coupling.twin related).box array).payload
  unfold setSlot
  rw [bind_ok (payload_ok array state), bind_ok (payload_ok array other)]
  rcases twin.eq_or_array with same | ⟨buffer, buffer', held, held', alike⟩
  · rw [same]
    cases held : (state.heap.get array).payload with
    | array buffer =>
      dsimp only
      cases stored : buffer.set? index item with
      | none => exact .error _ related
      | some changed => exact .ok rfl (coupling.store related held (same.trans held) stored stored)
    | _ => exact .ok rfl related
  · rw [held, held']
    dsimp only
    have both := alike.set?_isSome index item item
    cases stored : buffer.set? index item with
    | none =>
      rw [stored, Option.isSome_none, Option.isSome_eq_false_iff, Option.isNone_iff_eq_none] at both
      rw [both, alike.capacity]
      exact .error _ related
    | some changed =>
      rw [stored, Option.isSome_some, Option.isSome_iff_exists] at both
      obtain ⟨changed', stored'⟩ := both
      rw [stored']
      exact .ok rfl (coupling.store related held held' stored stored')

theorem steady_setField (record : Ref) (index : Nat) (item : Ref) :
    Steady S (setField record index item) := by
  intro state other related
  have twin := ((coupling.twin related).box record).payload
  unfold setField
  rw [bind_ok (payload_ok record state), bind_ok (payload_ok record other)]
  rcases twin.eq_or_array with same | ⟨buffer, buffer', held, held', _⟩
  · rw [same]
    cases held : (state.heap.get record).payload with
    | record fields =>
      dsimp only [Payload.record?]
      by_cases inside : index < fields.length
      · rw [if_pos inside]
        exact .ok rfl (coupling.field item related held (same.trans held) inside)
      · rw [if_neg inside]
        exact .ok rfl related
    | _ => exact .ok rfl related
  · rw [held, held']
    exact .ok rfl related

end

end Exec

end BoxedValues
