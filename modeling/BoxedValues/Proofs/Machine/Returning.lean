import BoxedValues.Machine.Engine

/-!
# Actions that return

An action returns when it ends with a result or with an ordinary error; a fault cuts it off
instead. This module says how actions run one after another, and which relations between states
an action keeps.

* `Exec.Returns` relates the states before and after an action that returns;
* `Exec.Keeps R` says that these two states are always related by `R`;
* `Frame R` lists the elementary changes of a state and asks that `R` holds for each of them.
  Everything that is composed of elementary actions then keeps `R`.
-/

set_option autoImplicit false

namespace BoxedValues

namespace Exec

variable {α β : Type}

/-- The action ends in the state `after` with a result or an error. -/
def Returns (action : Exec α) (before after : State) : Prop :=
  (∃ result, action before = .ok result after) ∨
    ∃ error, action before = .error (.error error) after

/-- Whenever the action returns, the states before and after it are related. -/
def Keeps (R : State → State → Prop) (action : Exec α) : Prop :=
  ∀ before after, action.Returns before after → R before after

/-! ## Running -/

theorem bind_ok {action : Exec α} {next : α → Exec β} {before middle : State} {result : α}
    (h : action before = .ok result middle) : (action >>= next) before = next result middle := by
  simp only [bind, EStateM.bind, h]

theorem bind_error {action : Exec α} {next : α → Exec β} {before after : State} {fault : Fault}
    (h : action before = .error fault after) : (action >>= next) before = .error fault after := by
  simp only [bind, EStateM.bind, h]

/-- Of the first part only what it does in the one state counts. -/
theorem bind_congr_left {action action' : Exec α} {next : α → Exec β} {before : State}
    (same : action before = action' before) : (action >>= next) before = (action' >>= next) before := by
  simp only [bind, EStateM.bind, same]

/-- A sequence that has a result has a first part with one. -/
theorem of_bind_ok {action : Exec α} {next : α → Exec β} {before after : State} {last : β}
    (h : (action >>= next) before = .ok last after) :
    ∃ result middle, action before = .ok result middle ∧ next result middle = .ok last after := by
  cases first : action before with
  | ok result middle => exact ⟨result, middle, rfl, by rwa [bind_ok first] at h⟩
  | error fault middle =>
    rw [bind_error first] at h
    cases h

theorem attempt_ok {action : Exec α} {before after : State} {result : α}
    (h : action before = .ok result after) : attempt action before = .ok (.ok result) after := by
  simp only [attempt, h]

theorem attempt_error {action : Exec α} {before after : State} {error : MachineError}
    (h : action before = .error (.error error) after) :
    attempt action before = .ok (.error error) after := by
  simp only [attempt, h]

/-- An error that is handed over and raised again makes no difference. -/
theorem attempt_bind_ofExcept (action : Exec α) : attempt action >>= ofExcept = action := by
  funext before
  rcases ran : action before with ⟨result, after⟩ | ⟨fault, after⟩
  · exact bind_ok (attempt_ok ran)
  · cases fault with
    | error error => exact bind_ok (attempt_error ran)
    | _ => exact bind_error (by simp only [attempt, ran])

theorem pure_ok (result : α) (state : State) :
    (pure result : Exec α) state = .ok result state := rfl

theorem box_ok (value : Ref) (state : State) :
    box value state = .ok (state.heap.get value) state := rfl

theorem payload_ok (value : Ref) (state : State) :
    payload value state = .ok (state.heap.get value).payload state := rfl

theorem typeId_ok (value : Ref) (state : State) :
    typeId value state = .ok (state.heap.get value).typeId state := rfl

section

variable {array : Ref} {buffer changed : Buffer} {index : Nat} {item : Ref} {state : State}
  (held : (state.heap.get array).payload = .array buffer)

include held

theorem push_ok (machine : Machine) (item : Ref) : machine.push array item state = .ok () { state with
    heap := state.heap.setPayload array (.array (buffer.push machine.noneValue item)) } := by
  unfold Machine.push
  rw [bind_ok (payload_ok array state), held]
  rfl

theorem setSlot_ok (stored : buffer.set? index item = some changed) :
    setSlot array index item state =
      .ok () { state with heap := state.heap.setPayload array (.array changed) } := by
  unfold setSlot
  rw [bind_ok (payload_ok array state), held]
  simp only [stored]
  rfl

theorem setSlot_error (refused : buffer.set? index item = none) :
    setSlot array index item state =
      .error (.storeBeyondCapacity index buffer.capacity) state := by
  unfold setSlot
  rw [bind_ok (payload_ok array state), held]
  simp only [refused]
  rfl

end

/-- The state in which an action ended, unless it was cut off. -/
def ended : EStateM.Result Fault State α → Option State
  | .ok _ after => some after
  | .error (.error _) after => some after
  | .error _ _ => none

theorem returns_iff {action : Exec α} {before after : State} :
    action.Returns before after ↔ ended (action before) = some after := by
  unfold Returns
  cases action before with
  | ok result last => simp [ended]
  | error fault last =>
    cases fault with
    | error error => simp [ended]
    | _ => simp [ended]

/-- A sequence that returns has a first part that returns, and ends there unless that part has a
result. -/
theorem returns_bind {action : Exec α} {next : α → Exec β} {before after : State}
    (h : (action >>= next).Returns before after) :
    action.Returns before after ∨
      ∃ result middle, action before = .ok result middle ∧ (next result).Returns middle after := by
  cases first : action before with
  | ok result middle =>
    refine .inr ⟨result, middle, rfl, ?_⟩
    simpa only [Returns, bind_ok first] using h
  | error fault middle =>
    rcases h with ⟨result, hok⟩ | ⟨error, herror⟩
    · rw [bind_error first] at hok
      cases hok
    · rw [bind_error first] at herror
      cases herror
      exact .inl (.inr ⟨error, first⟩)

/-! ## Frames -/

/-- A list of marks is read as it was last written, and writing it changes nothing else. -/
structure MarkList.Lawful {κ : Type} (list : MarkList κ) : Prop where
  get_set : ∀ keys marks, list.get (list.set keys marks) = keys
  set_set : ∀ keys others marks, list.set keys (list.set others marks) = list.set keys marks
  set_get : ∀ marks, list.set (list.get marks) marks = marks

theorem lawful_textMarks : textMarks.Lawful := ⟨fun _ _ => rfl, fun _ _ _ => rfl, fun _ => rfl⟩

theorem lawful_hashMarks : hashMarks.Lawful := ⟨fun _ _ => rfl, fun _ _ _ => rfl, fun _ => rfl⟩

theorem lawful_equalityMarks : equalityMarks.Lawful :=
  ⟨fun _ _ => rfl, fun _ _ _ => rfl, fun _ => rfl⟩

end Exec

/-- A relation between states that every elementary change respects. New arrays have room for
their elements, the payload of a box is only replaced by one of the same kind, and the sink is offered
whole lines. -/
structure Frame (R : State → State → Prop) : Prop where
  refl : ∀ state, R state state
  trans : ∀ {first second third}, R first second → R second third → R first third
  alloc : ∀ state box,
    (∀ buffer, box.payload = .array buffer → buffer.length ≤ buffer.capacity) →
      R state { state with heap := (state.heap.alloc box).2 }
  push : ∀ state ref buffer filler item, (state.heap.get ref).payload = .array buffer →
    R state { state with heap := state.heap.setPayload ref (.array (buffer.push filler item)) }
  store : ∀ state ref buffer changed index item, (state.heap.get ref).payload = .array buffer →
    buffer.set? index item = some changed →
      R state { state with heap := state.heap.setPayload ref (.array changed) }
  field : ∀ state ref fields index item, (state.heap.get ref).payload = .record fields →
    index < fields.length →
      R state { state with heap := state.heap.setPayload ref (.record (fields.set index item)) }
  write : ∀ state texts,
    R state { state with sink := (state.sink.offerLine (Engine.linePieces texts)).2 }
  marking : ∀ {κ : Type} [DecidableEq κ] {list : Exec.MarkList κ}, list.Lawful →
    ∀ key {before after}, key ∉ list.get before.marks →
      R { before with marks := list.set (key :: list.get before.marks) before.marks } after →
        R before { after with marks := list.set ((list.get after.marks).erase key) after.marks }

namespace Exec

variable {α β : Type} {R : State → State → Prop}

theorem keeps_attempt {action : Exec α} (keeps : Keeps R action) : Keeps R (attempt action) := by
  intro before after h
  have same : ended (attempt action before) = ended (action before) := by
    unfold attempt
    cases action before with
    | ok result last => rfl
    | error fault last => cases fault <;> rfl
  rw [returns_iff, same, ← returns_iff] at h
  exact keeps before after h

section

variable (frame : Frame R)

include frame

theorem keeps_pure (result : α) : Keeps R (pure result : Exec α) := by
  intro before after h
  cases returns_iff.1 h
  exact frame.refl before

theorem keeps_throw (fault : Fault) : Keeps R (throw fault : Exec α) := by
  intro before after h
  cases fault with
  | error error =>
    cases returns_iff.1 h
    exact frame.refl before
  | _ => cases returns_iff.1 h

theorem keeps_fail (error : MachineError) : Keeps R (fail error : Exec α) :=
  keeps_throw frame _

theorem keeps_ofExcept (outcome : Except MachineError α) : Keeps R (ofExcept outcome) := by
  cases outcome with
  | ok result => exact keeps_pure frame result
  | error error => exact keeps_fail frame error

theorem keeps_bind {action : Exec α} {next : α → Exec β} (first : Keeps R action)
    (rest : ∀ result, Keeps R (next result)) : Keeps R (action >>= next) := by
  intro before after h
  rcases returns_bind h with stopped | ⟨result, middle, hfirst, hrest⟩
  · exact first before after stopped
  · exact frame.trans (first before middle (.inl ⟨result, hfirst⟩)) (rest result middle after hrest)

theorem keeps_mapM {f : α → Exec β} (each : ∀ item, Keeps R (f item)) (items : List α) :
    Keeps R (items.mapM f) := by
  induction items with
  | nil => exact keeps_pure frame []
  | cons item items ih =>
    rw [List.mapM_cons]
    apply keeps_bind frame (each item)
    intro _
    exact keeps_bind frame ih fun _ => keeps_pure frame _

/-! ## The heap -/

theorem keeps_box (value : Ref) : Keeps R (box value) := by
  intro before after h
  cases returns_iff.1 h
  exact frame.refl before

theorem keeps_payload (value : Ref) : Keeps R (payload value) :=
  keeps_bind frame (keeps_box frame value) fun _ => keeps_pure frame _

theorem keeps_typeId (value : Ref) : Keeps R (typeId value) :=
  keeps_bind frame (keeps_box frame value) fun _ => keeps_pure frame _

theorem keeps_bytesOf (value : Ref) : Keeps R (bytesOf value) :=
  keeps_bind frame (keeps_payload frame value) fun _ => keeps_pure frame _

theorem keeps_alloc (box : Box)
    (room : ∀ buffer, box.payload = .array buffer → buffer.length ≤ buffer.capacity) :
    Keeps R (alloc box) := by
  intro before after h
  cases returns_iff.1 h
  exact frame.alloc before box room

theorem keeps_setSlot (array : Ref) (index : Nat) (item : Ref) :
    Keeps R (setSlot array index item) := by
  intro before after h
  rw [returns_iff] at h
  unfold setSlot at h
  rw [bind_ok (payload_ok array before)] at h
  cases held : (before.heap.get array).payload with
  | array buffer =>
    simp only [held] at h
    cases stored : buffer.set? index item with
    | some changed =>
      simp only [stored] at h
      cases h
      exact frame.store before array buffer changed index item held stored
    | none =>
      simp only [stored] at h
      cases h
  | _ =>
    simp only [held] at h
    cases h
    exact frame.refl before

theorem keeps_setField (record : Ref) (index : Nat) (item : Ref) :
    Keeps R (setField record index item) := by
  intro before after h
  rw [returns_iff] at h
  unfold setField at h
  rw [bind_ok (payload_ok record before)] at h
  cases held : (before.heap.get record).payload with
  | record fields =>
    simp only [held, Payload.record?] at h
    by_cases inside : index < fields.length
    · simp only [if_pos inside] at h
      cases h
      exact frame.field before record fields index item held inside
    · simp only [if_neg inside] at h
      cases h
      exact frame.refl before
  | _ =>
    simp only [held] at h
    cases h
    exact frame.refl before

/-! ## Marks, errors and output -/

theorem keeps_marking {κ : Type} [DecidableEq κ] {list : MarkList κ} (lawful : list.Lawful)
    (key : κ) {body : Exec α} (keeps : Keeps R body) : Keeps R (marking list key body) := by
  intro before after h
  rw [returns_iff] at h
  unfold marking at h
  by_cases marked : key ∈ list.get before.marks
  · rw [if_pos marked] at h
    cases h
    exact frame.refl before
  · rw [if_neg marked] at h
    split at h
    · rename_i result middle inner
      cases h
      exact frame.marking lawful key marked (keeps _ _ (.inl ⟨result, inner⟩))
    · rename_i error middle inner
      cases h
      exact frame.marking lawful key marked (keeps _ _ (.inr ⟨error, inner⟩))
    · rename_i fault middle ordinary inner
      cases fault with
      | error error => exact absurd rfl (ordinary error)
      | _ => cases h

theorem keeps_write (texts : List Bytes) : Keeps R (write (Engine.linePieces texts)) := by
  intro before after h
  rw [returns_iff] at h
  have kept := frame.write before texts
  unfold write at h
  split at h
  · rename_i sink offered
    rw [offered] at kept
    cases h
    exact kept
  · rename_i reason sink offered
    rw [offered] at kept
    cases h
    exact kept

end

end Exec

end BoxedValues
