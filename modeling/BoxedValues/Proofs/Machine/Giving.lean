import BoxedValues.Proofs.Machine.Assembled

/-!
# Actions that give a result

`Exec.Gives` says that an action ends with a result, and that it only adds boxes: everything that
was on the heap is still there unchanged, the marks are as they were, and nothing was printed. The
rules of this module put such actions together.

The last section is about dispatch: which method a value of a builtin type is sent to, and that a
machine which may nest calls deeper by one runs it as the machine itself.
-/

set_option autoImplicit false

namespace BoxedValues

/-- The later state has more boxes at most. -/
structure State.Grows (before after : State) : Prop where
  heap : before.heap.Extends after.heap
  marks : after.marks = before.marks
  sink : after.sink = before.sink

namespace State.Grows

variable {before middle after : State}

theorem refl (state : State) : state.Grows state := ⟨.refl state.heap, rfl, rfl⟩

theorem trans (first : before.Grows middle) (second : middle.Grows after) : before.Grows after :=
  ⟨first.heap.trans second.heap, second.marks.trans first.marks, second.sink.trans first.sink⟩

end State.Grows

namespace Exec

variable {α β κ : Type} {P Q : α → Heap → Prop} {R : β → Heap → Prop} {before after : State}
  {action : Exec α} {next : α → Exec β} {result : α}

/-- The action ends with a result that has the property, and only adds boxes. -/
def Gives (action : Exec α) (before : State) (P : α → Heap → Prop) : Prop :=
  ∃ result after, action before = .ok result after ∧ before.Grows after ∧ P result after.heap

theorem gives_of_ok (h : action before = .ok result before) (property : P result before.heap) :
    action.Gives before P := ⟨result, before, h, .refl before, property⟩

theorem gives_pure (property : P result before.heap) : (pure result : Exec α).Gives before P :=
  gives_of_ok (pure_ok result before) property

theorem Gives.mono (h : action.Gives before P)
    (implies : ∀ result heap, P result heap → Q result heap) : action.Gives before Q := by
  obtain ⟨result, after, ran, grows, property⟩ := h
  exact ⟨result, after, ran, grows, implies result after.heap property⟩

theorem Gives.of_eq {other : Exec α} (h : other.Gives before P)
    (same : action before = other before) : action.Gives before P := by
  rwa [Gives, same]

theorem Gives.growing (h : action.Gives before P) :
    action.Gives before fun result heap => before.heap.Extends heap ∧ P result heap := by
  obtain ⟨result, after, ran, grows, property⟩ := h
  exact ⟨result, after, ran, grows, grows.heap, property⟩

theorem Gives.bind (first : action.Gives before P)
    (rest : ∀ result after, before.Grows after → P result after.heap →
      (next result).Gives after R) : (action >>= next).Gives before R := by
  obtain ⟨result, middle, ran, grows, property⟩ := first
  obtain ⟨last, after, ranLast, growsLast, propertyLast⟩ := rest result middle grows property
  refine ⟨last, after, ?_, grows.trans growsLast, propertyLast⟩
  rw [bind_ok ran, ranLast]

/-- A first part that only looks at the state. -/
theorem gives_bind_ok (h : action before = .ok result before)
    (rest : (next result).Gives before R) : (action >>= next).Gives before R := by
  obtain ⟨last, after, ran, grows, property⟩ := rest
  exact ⟨last, after, by rw [bind_ok h, ran], grows, property⟩

theorem gives_alloc (box : Box) (before : State) :
    (alloc box).Gives before fun ref heap => heap.Holds ref box :=
  ⟨_, _, rfl, ⟨Heap.extends_alloc before.heap box, rfl, rfl⟩, before.heap.holds_alloc box⟩

/-- Items in order, each with a result that depends on nothing but the item. -/
theorem gives_mapM {ι : Type} {f : ι → Exec α} {g : ι → α} (items : List ι)
    (each : ∀ item ∈ items, ∀ after, before.Grows after →
      (f item).Gives after fun result _ => result = g item) :
    (items.mapM f).Gives before fun results _ => results = items.map g := by
  induction items generalizing before with
  | nil => exact gives_pure rfl
  | cons item items ih =>
    rw [List.mapM_cons]
    apply (each item (.head items) before (.refl before)).bind
    intro result middle grows same
    have further : ∀ item ∈ items, ∀ after, middle.Grows after →
        (f item).Gives after fun result _ => result = g item :=
      fun item mem after more => each item (.tail _ mem) after (grows.trans more)
    refine (ih further).bind fun results after _ sames => gives_pure ?_
    rw [same, sames, List.map_cons]

/-! ## Marks -/

variable [DecidableEq κ] {list : MarkList κ} {key : κ} {body : Exec α}

theorem gives_marking_of_mem (marked : key ∈ list.get before.marks) :
    (marking list key body).Gives before fun result _ => result = none := by
  refine gives_of_ok ?_ rfl
  unfold marking
  rw [if_pos marked]

theorem gives_marking (lawful : list.Lawful) (fresh : key ∉ list.get before.marks)
    (h : body.Gives { before with
      marks := list.set (key :: list.get before.marks) before.marks } P) :
    (marking list key body).Gives before fun result heap =>
      ∃ value, result = some value ∧ P value heap := by
  obtain ⟨result, after, ran, grows, property⟩ := h
  have marks := grows.marks
  simp only at marks
  refine ⟨some result, { after with marks := list.set ((list.get after.marks).erase key) after.marks },
    ?_, ⟨grows.heap, ?_, grows.sink⟩, result, rfl, property⟩
  · unfold marking
    rw [if_neg fresh]
    simp only [ran]
  · simp only [marks, lawful.get_set, List.erase_cons_head, lawful.set_set, lawful.set_get]

end Exec

/-! ## Dispatch -/

namespace Arguments

variable {α : Type} {held : Accessor α} {value other : Ref} {rest : List Ref} {state : State}

theorem given_zero (state : State) : given (value :: rest) 0 state = .ok value state := rfl

theorem given_one (state : State) : given (value :: other :: rest) 1 state = .ok other state := rfl

theorem receiver_ok {content : α} (found : held.get? (state.heap.get value).payload = some content) :
    receiver held (value :: rest) state = .ok content state := by
  unfold receiver
  rw [Exec.bind_ok (given_zero state), Exec.bind_ok (Exec.box_ok value state), found]
  rfl

theorem required_ok {args : List Ref} {index : Nat} {content : α} (at_index : args[index]? = some value)
    (found : held.get? (state.heap.get value).payload = some content) :
    required held args index state = .ok content state := by
  have reached : given args index state = .ok value state := by
    unfold given
    rw [at_index]
    rfl
  unfold required
  rw [Exec.bind_ok reached, Exec.bind_ok (Exec.box_ok value state), found]
  rfl

section

variable {args : List Ref} {index : Nat}

theorem optional_missing (missing : args[index]? = none) :
    optional held args index state = .ok none state := by
  unfold optional
  rw [missing]
  rfl

variable (at_index : args[index]? = some value)

include at_index

theorem optional_none (none : (state.heap.get value).payload = .none) :
    optional held args index state = .ok .none state := by
  unfold optional
  rw [at_index]
  refine (Exec.bind_ok (Exec.payload_ok value state)).trans ?_
  rw [none]
  rfl

theorem optional_ok {content : α} (there : (state.heap.get value).payload ≠ .none)
    (found : held.get? (state.heap.get value).payload = some content) :
    optional held args index state = .ok (some content) state := by
  have some : (state.heap.get value).payload.isNone = false := by
    cases payload : (state.heap.get value).payload with
    | none => exact absurd payload there
    | _ => rfl
  have given := required_ok at_index found
  unfold optional
  rw [at_index]
  refine (Exec.bind_ok (Exec.payload_ok value state)).trans ?_
  rw [some]
  exact Exec.bind_ok given

end

end Arguments

theorem BuiltinType.method?_string (method : StringMethod) :
    BuiltinType.string.entry.method? method.slot = some (.builtin (.string method)) := by
  cases method <;> rfl

theorem BuiltinType.method?_array (method : ArrayMethod) :
    BuiltinType.array.entry.method? method.slot = some (.builtin (.array method)) := by
  cases method <;> rfl

namespace Machine

variable {machine : Machine} {state : State} {value : Ref} {entry : Entry} {depth : Nat}
  {type : BuiltinType}

theorem entryOf_ok {engine : Engine} (found : engine.machine.table.entry (state.heap.get value).typeId =
    .ok entry) : engine.entryOf value state = .ok entry state := by
  unfold Engine.entryOf
  rw [Exec.bind_ok (Exec.typeId_ok value state), found]
  rfl

theorem entryOf_error {engine : Engine} {error : MachineError}
    (missing : engine.machine.table.entry (state.heap.get value).typeId = .error error) :
    engine.entryOf value state = .error (.error error) state := by
  unfold Engine.entryOf
  rw [Exec.bind_ok (Exec.typeId_ok value state), missing]
  rfl

/-- The entry of a box with a builtin type, whatever the box holds. -/
theorem entryOf_builtin (complete : machine.Complete)
    (id : (state.heap.get value).typeId = machine.ids.id type) :
    (machine.engine depth).entryOf value state = .ok type.entry state := by
  have found : machine.table.entry (state.heap.get value).typeId = .ok type.entry := by
    rw [id]
    exact complete type
  exact entryOf_ok found

/-- Such a box is sent to the methods of that type. -/
theorem send_builtin {slot : Nat} {builtin : Builtin} {others : List Ref}
    (complete : machine.Complete) (id : (state.heap.get value).typeId = machine.ids.id type)
    (method : type.entry.method? slot = some (.builtin builtin))
    (count : builtin.arity.accepts (others.length + 1) = true) :
    (machine.engine (depth + 1)).send slot (value :: others) state =
      (machine.engine depth).runBuiltin builtin (value :: others) state := by
  unfold Engine.send
  refine (Exec.bind_ok (entryOf_builtin complete id)).trans ?_
  rw [method]
  exact congrFun (invoke_builtin_succ count) state

/-- A common method of a builtin type is run by the machine that nests calls less deep by one. -/
theorem invoke_common {method : CommonMethod} {args : List Ref}
    (count : method.arity.accepts args.length = true) :
    (machine.engine (depth + 1)).invoke (.builtin (.common type method)) args =
      (machine.engine depth).runCommon type method args := invoke_builtin_succ count

theorem gives_act {α : Type} {action : Engine → Exec α} {P : α → Heap → Prop}
    (h : (action (machine.engine (machine.depth state))).Gives state P) :
    (machine.act action).Gives state P := by
  obtain ⟨result, after, ran, rest⟩ := h
  exact ⟨result, after, (act_apply machine action state).trans ran, rest⟩

section

variable (machine) {base : Heap} (fits : base.size ≤ state.heap.size)

include fits

/-- The depth of a state is enough for all values on its heap and all pairs of them, even in a method
that was called. -/
theorem exists_spare_depth : ∃ depth, machine.depth state = depth + 1 ∧ base.pairs.card < depth ∧
    base.refs.card < depth := by
  obtain ⟨depth, deep⟩ := machine.exists_depth state
  have pairs := base.card_pairs_le
  have refs := base.card_refs_le
  have squares : base.size * base.size ≤ state.heap.size * state.heap.size :=
    Nat.mul_self_le_mul_self fits
  have square : (state.heap.size + 2) * (state.heap.size + 2) =
      state.heap.size * state.heap.size + 4 * state.heap.size + 4 := by
    simp only [Nat.add_mul, Nat.mul_add]
    omega
  refine ⟨depth, deep, ?_⟩
  unfold Machine.depth at deep
  omega

theorem card_pairs_lt_depth : base.pairs.card < machine.depth state := by
  obtain ⟨depth, deep, pairs, _⟩ := machine.exists_spare_depth fits
  omega

theorem card_refs_lt_depth : base.refs.card < machine.depth state := by
  obtain ⟨depth, deep, _, refs⟩ := machine.exists_spare_depth fits
  omega

theorem unmarked_pairs_lt_depth (marks : List (Ref × Ref)) :
    unmarked base.pairs marks < machine.depth state :=
  (unmarked_le_card base.pairs marks).trans_lt (machine.card_pairs_lt_depth fits)

theorem unmarked_refs_lt_depth (marks : List Ref) :
    unmarked base.refs marks < machine.depth state :=
  (unmarked_le_card base.refs marks).trans_lt (machine.card_refs_lt_depth fits)

end

section

variable {others : List Ref} (complete : machine.Complete)

include complete

/-- A box with the type of strings is sent to the methods of strings. -/
theorem send_string {method : StringMethod}
    (id : (state.heap.get value).typeId = machine.ids.string)
    (count : method.arity.accepts (others.length + 1) = true) :
    machine.send method.slot (value :: others) state =
      machine.runString method (value :: others) state := by
  obtain ⟨depth, deep⟩ := machine.exists_depth state
  rw [send, act_apply, deep]
  exact send_builtin complete id (BuiltinType.method?_string method) count

/-- A box with the type of arrays is sent to the methods of arrays, with room for all values. -/
theorem send_array {method : ArrayMethod}
    (id : (state.heap.get value).typeId = machine.ids.array)
    (count : method.arity.accepts (others.length + 1) = true) :
    ∃ depth, state.heap.refs.card < depth ∧ machine.send method.slot (value :: others) state =
      (machine.engine depth).runArray method (value :: others) state := by
  obtain ⟨depth, deep, _, refs⟩ := machine.exists_spare_depth (Nat.le_refl state.heap.size)
  refine ⟨depth, refs, ?_⟩
  rw [send, act_apply, deep]
  exact send_builtin complete id (BuiltinType.method?_array method) count

end

end Machine

end BoxedValues
