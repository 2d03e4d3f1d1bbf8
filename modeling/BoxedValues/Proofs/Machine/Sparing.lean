import BoxedValues.Proofs.Machine.Visiting

/-!
# What operations of builtin types leave alone

An operation names the array to which it appends or in which it stores, and the record whose field
it replaces (`Machine.named`). If all methods that it is dispatched to are those of builtin types
(`Machine.StaysBuiltin`), it changes no other box, whether it succeeds or fails.

* `Machine.staysBuiltin_of_direct`: what looks for no methods is such an operation on every machine;
* `Machine.keepsBut_perform`: the step, for one operation;
* `Machine.Spares.holds`: the run, for any number of operations that name none of some boxes;
* `Machine.builtin_operations_spare`: both, and what follows for slices and concatenations, which
  share their elements with the arrays that they are made of.
-/

set_option autoImplicit false

namespace BoxedValues

open Exec

/-! ## Heaps in which little has changed -/

namespace Heap

variable {before after : Heap} {ref other : Ref} {box : Box} {named : List Ref}

/-- All boxes are still there with their types and kinds, and those that are not named are as they
were. -/
structure KeepsBut (named : List Ref) (before after : Heap) : Prop where
  persists : before.Persists after
  holds : ∀ ref box, before.Holds ref box → ref ∉ named → after.Holds ref box

theorem Extends.keepsBut (h : before.Extends after) (named : List Ref) :
    before.KeepsBut named after :=
  ⟨h.persists, fun ref box held _ => h ref box held⟩

theorem KeepsBut.refl (named : List Ref) (heap : Heap) : heap.KeepsBut named heap :=
  (Extends.refl heap).keepsBut named

theorem Holds.setPayload_of_ne (held : before.Holds other box) (apart : other ≠ ref)
    (payload : Payload) : (before.setPayload ref payload).Holds other box := by
  have places : ref.index ≠ other.index := fun same => apart (by cases ref; cases other; simp_all)
  unfold Holds at *
  simp only [setPayload, Array.getElem?_modify, if_neg places, held]

theorem keepsBut_setPayload {payload : Payload}
    (kind : payload.kind = (before.get ref).payload.kind) (mutable : payload.kind.isMutable = true) :
    before.KeepsBut [ref] (before.setPayload ref payload) := by
  refine ⟨persists_setPayload kind mutable, fun other box held unnamed => ?_⟩
  exact held.setPayload_of_ne (fun same => unnamed (by simp [same])) payload

theorem items_of_holds (h : before.Holds ref box) (h' : after.Holds ref box) :
    after.items ref = before.items ref := by
  unfold items
  rw [h.get, h'.get]

end Heap

/-! ## Elementary actions -/

namespace Exec

variable {α β : Type} {state : State} {named : List Ref}

/-- The action only looks at the state. -/
def Looks (action : Exec α) : Prop := ∀ state, action.last state = state

/-- The action changes no boxes but those that are named, however it ends. -/
def Touches (named : List Ref) (action : Exec α) (state : State) : Prop :=
  state.heap.KeepsBut named (action.last state).heap

theorem looks_pure (result : α) : Looks (pure result) := fun _ => rfl

theorem looks_throw (fault : Fault) : Looks (throw fault : Exec α) := fun _ => rfl

theorem looks_box (value : Ref) : Looks (box value) := fun _ => rfl

theorem Looks.bind {action : Exec α} {next : α → Exec β} (looks : Looks action)
    (rest : ∀ result, Looks (next result)) : Looks (action >>= next) := by
  intro state
  have same := looks state
  cases ran : action state with
  | ok result after =>
    rw [last_ok ran] at same
    subst same
    have goes : (action >>= next) after = next result after := bind_ok ran
    have ends := rest result after
    unfold last at ends ⊢
    rwa [goes]
  | error fault after =>
    rw [last_error ran] at same
    rw [last_error (bind_error ran), same]

theorem looks_given (args : List Ref) (index : Nat) : Looks (Arguments.given args index) := by
  unfold Arguments.given
  split
  · exact looks_pure _
  · exact looks_throw _

theorem looks_receiver (held : Accessor α) (args : List Ref) :
    Looks (Arguments.receiver held args) := by
  refine (looks_given args 0).bind fun value => (looks_box value).bind fun box => ?_
  split
  · exact looks_pure _
  · exact looks_throw _

theorem touches_of_looks {action : Exec α} (looks : Looks action) (named : List Ref) (state : State) :
    action.Touches named state := by
  unfold Touches
  rw [looks state]
  exact .refl named state.heap

theorem Touches.congr {action action' : Exec α} (h : action.Touches named state)
    (same : action' state = action state) : action'.Touches named state := by
  unfold Touches last at *
  rwa [same]

/-- A first part that only looks at the state. -/
theorem touches_bind {action : Exec α} {next : α → Exec β} (looks : Looks action)
    (rest : ∀ result, action state = .ok result state → (next result).Touches named state) :
    (action >>= next).Touches named state := by
  have same := looks state
  cases ran : action state with
  | ok result after =>
    rw [last_ok ran] at same
    subst same
    have goes : (action >>= next) after = next result after := bind_ok ran
    have kept := rest result ran
    unfold Touches last at kept ⊢
    rwa [goes]
  | error fault after =>
    rw [last_error ran] at same
    unfold Touches
    rw [last_error (bind_error ran), same]
    exact .refl named state.heap

/-- A last part that only looks at the state. -/
theorem Touches.bind {action : Exec α} {next : α → Exec β} (first : action.Touches named state)
    (rest : ∀ result, Looks (next result)) : (action >>= next).Touches named state := by
  cases ran : action state with
  | ok result after =>
    have goes : (action >>= next) state = next result after := bind_ok ran
    have ends := rest result after
    unfold Touches last at *
    rw [ran] at first
    rw [goes, ends]
    exact first
  | error fault after =>
    unfold Touches at *
    rw [last_error (bind_error ran)]
    rwa [last_error ran] at first

theorem touches_attempt {action : Exec α} (h : action.Touches named state) :
    (attempt action).Touches named state := by
  have same : (attempt action).last state = action.last state := by
    unfold last attempt
    cases action state with
    | ok result after => rfl
    | error fault after => cases fault <;> rfl
  unfold Touches
  rw [same]
  exact h

/-! ## Elementary changes -/

theorem touches_push (machine : Machine) (array item : Ref) (state : State) :
    (machine.push array item).Touches [array] state := by
  unfold Touches last Machine.push
  rw [bind_ok (payload_ok array state)]
  cases held : (state.heap.get array).payload with
  | array buffer => exact Heap.keepsBut_setPayload (by rw [held]; rfl) rfl
  | _ => exact .refl _ _

theorem touches_setSlot (array : Ref) (index : Nat) (item : Ref) (state : State) :
    (setSlot array index item).Touches [array] state := by
  unfold Touches last setSlot
  rw [bind_ok (payload_ok array state)]
  cases held : (state.heap.get array).payload with
  | array buffer =>
    dsimp only
    cases buffer.set? index item with
    | none => exact .refl _ _
    | some changed => exact Heap.keepsBut_setPayload (by rw [held]; rfl) rfl
  | _ => exact .refl _ _

theorem touches_setField (record : Ref) (index : Nat) (item : Ref) (state : State) :
    (setField record index item).Touches [record] state := by
  unfold Touches last setField
  rw [bind_ok (payload_ok record state)]
  cases held : (state.heap.get record).payload with
  | record fields =>
    dsimp only [Payload.record?]
    by_cases inside : index < fields.length
    · rw [if_pos inside]
      exact Heap.keepsBut_setPayload (by rw [held]; rfl) rfl
    · rw [if_neg inside]
      exact .refl _ _
  | _ => exact .refl _ _

end Exec

/-! ## The machine without other types -/

/-- The boxes of an earlier heap are all there, unchanged. -/
theorem coupling_extends (base : Heap) : Coupling (State.SameWith fun heap => base.Extends heap) :=
  coupling_sameWith fun heap box kept _ => kept.trans (Heap.extends_alloc heap box)

theorem Exec.Steady.touches {α : Type} {action : Exec α} {state : State}
    (steady : Steady (State.SameWith fun heap => state.heap.Extends heap) action) (named : List Ref) :
    action.Touches named state :=
  (steady state state ⟨rfl, .refl state.heap⟩).last.2.keepsBut named

/-- A method of the same name and arity that fails. -/
def Method.disabled (method : Method) : Method :=
  .function method.name method.arity fun _ => .fail (.noMethod method.name 0)

/-- A type whose methods fail. -/
def Entry.disabled (entry : Entry) : Entry :=
  { entry with methods := entry.methods.map Method.disabled }

theorem Entry.method?_disabled (entry : Entry) (slot : Nat) :
    entry.disabled.method? slot = (entry.method? slot).map Method.disabled :=
  List.getElem?_map

namespace Engine

theorem runMethod_disabled (engine : Engine) (method : Method) (args : List Ref) :
    ∃ error, engine.runMethod method.disabled args = Exec.fail error := by
  unfold runMethod
  split
  · exact ⟨_, rfl⟩
  · exact ⟨_, rfl⟩

end Engine

namespace Machine

/-- The machine on which the methods of all other types than the builtin ones fail. -/
def builtinsOnly (machine : Machine) : Machine :=
  { machine with
    table := ⟨machine.table.entries.mapIdx fun index entry =>
      if BuiltinType.all.any fun type => (machine.ids.id type).index == index then entry
      else entry.map Entry.disabled⟩ }

variable {machine : Machine}

/-- What it finds in the table is a builtin type, or a type whose methods fail. -/
theorem entry_builtinsOnly (complete : machine.Complete) {id : TypeId} {entry : Entry}
    (found : machine.builtinsOnly.table.entry id = .ok entry) :
    ∃ registered, machine.table.entry id = .ok registered ∧
      ((∃ type : BuiltinType, registered = type.entry ∧ entry = type.entry) ∨
        entry = registered.disabled) := by
  rw [Table.entry_eq_ok_iff, builtinsOnly, Array.getElem?_mapIdx, Option.map_eq_some_iff] at found
  obtain ⟨place, held, same⟩ := found
  split at same
  · rename_i isBuiltin
    subst same
    have registered : machine.table.entry id = .ok entry := Table.entry_eq_ok_iff.2 held
    obtain ⟨type, _, index⟩ := List.any_eq_true.1 isBuiltin
    have known := complete type
    rw [TypeId.ext_index (beq_iff_eq.1 index), registered] at known
    exact ⟨entry, registered, .inl ⟨type, Except.ok.inj known, Except.ok.inj known⟩⟩
  · obtain ⟨registered, rfl, rfl⟩ := Option.map_eq_some_iff.1 same
    exact ⟨registered, Table.entry_eq_ok_iff.2 held, .inr rfl⟩

/-- The methods that it finds are builtin ones, or they fail. -/
theorem method?_builtinsOnly (complete : machine.Complete) {type : TypeId} {slot : Nat}
    {found : Method} (inSlot : machine.builtinsOnly.method? type slot = some found) :
    ∃ method, machine.method? type slot = some method ∧
      ((∃ builtin, method = .builtin builtin ∧ found = .builtin builtin) ∨
        found = method.disabled) := by
  obtain ⟨entry, held, inSlot⟩ := method?_eq_some_iff.1 inSlot
  obtain ⟨registered, known, ⟨type, rfl, rfl⟩ | rfl⟩ := entry_builtinsOnly complete held
  · obtain ⟨builtin, _, rfl⟩ := List.mem_map.1 (List.mem_of_getElem? inSlot)
    exact ⟨_, method?_eq_some_iff.2 ⟨_, known, inSlot⟩, .inl ⟨builtin, rfl, rfl⟩⟩
  · rw [Entry.method?_disabled] at inSlot
    obtain ⟨method, own, rfl⟩ := Option.map_eq_some_iff.1 inSlot
    exact ⟨method, method?_eq_some_iff.2 ⟨_, known, own⟩, .inr rfl⟩

variable {S : State → State → Prop}

/-- The common methods of builtin types call no others than common methods, so they add boxes at
most, nested to any depth. -/
theorem commonSteady_builtinsOnly (complete : machine.Complete) (coupling : Coupling S)
    (depth : Nat) : Engine.CommonSteady S (machine.builtinsOnly.engine depth) := by
  induction depth with
  | zero => exact fun _ _ _ _ _ _ _ => steady_throw _
  | succ depth ih =>
    intro id entry common method found sent args
    show Steady S (Engine.runMethod (machine.builtinsOnly.engine depth) method args)
    obtain ⟨registered, _, ⟨type, _, rfl⟩ | rfl⟩ := entry_builtinsOnly complete found
    · rw [BuiltinType.common?_entry] at sent
      cases sent
      unfold Engine.runMethod
      split
      · exact Engine.steady_runCommon _ coupling ih type common args
      · exact steady_fail _
    · rw [Entry.common?, Entry.method?_disabled] at sent
      obtain ⟨method, _, rfl⟩ := Option.map_eq_some_iff.1 sent
      obtain ⟨error, fails⟩ :=
        Engine.runMethod_disabled (machine.builtinsOnly.engine depth) method args
      rw [fails]
      exact steady_fail error

end Machine

/-! ## What an operation names -/

/-- What a method is asked to change. -/
def Method.named : Method → List Ref → List Ref
  | .builtin (.array .push), receiver :: _ => [receiver]
  | _, _ => []

/-- The method runs no methods of elements. -/
def ArrayMethod.Direct : ArrayMethod → Prop
  | .join | .contains | .dedupe => False
  | _ => True

/-- The operation looks for no methods in types. -/
def Operation.Direct : Operation → Prop
  | .request (.text _) | .request (.equal _ _) | .request (.hash _) => False
  | .request (.call _ _) | .request (.invoke _ _ _) | .request (.printLine _) => False
  | .method (.builtin (.array own)) _ => own.Direct
  | .method (.builtin (.string _)) _ => True
  | .method _ _ => False
  | _ => True

namespace Machine

/-- What the method in a slot of a type is asked to change. -/
def namedIn (machine : Machine) (type : TypeId) (slot : Nat) (args : List Ref) : List Ref :=
  match machine.method? type slot with
  | some method => method.named args
  | none => []

/-- The boxes that an operation is asked to change. -/
def named (machine : Machine) (state : State) : Operation → List Ref
  | .request (.set array _ _) => [array]
  | .request (.push array _) => [array]
  | .request (.setField record _ _) => [record]
  | .request (.call slot (receiver :: args)) =>
    machine.namedIn (state.heap.get receiver).typeId slot (receiver :: args)
  | .request (.invoke type slot args) => machine.namedIn type slot args
  | .method method args => method.named args
  | _ => []

/-- No method of another type than the builtin ones is run: the operation goes the same way on the
machine on which such methods fail. It may meet values of other types, and look in vain for methods
that these do not have. -/
structure StaysBuiltin (machine : Machine) (state : State) (op : Operation) : Prop where
  method : ∀ method args, op = .method method args → ∃ builtin, method = .builtin builtin
  same : machine.perform op state = machine.builtinsOnly.perform op state

variable {machine : Machine} {state : State}

theorem touches_runBuiltin {engine : Engine}
    (common : engine.CommonSteady (State.SameWith fun heap => state.heap.Extends heap))
    (builtin : Builtin) (args : List Ref) :
    (engine.runBuiltin builtin args).Touches ((Method.builtin builtin).named args) state := by
  by_cases push : builtin = .array .push
  · subst push
    refine touches_bind (looks_receiver .array args) fun buffer received => ?_
    cases args with
    | nil => cases received
    | cons receiver rest =>
      refine touches_bind (looks_given _ 0) fun array given => ?_
      cases given
      refine touches_bind (looks_given _ 1) fun item _ => ?_
      exact (touches_push engine.machine receiver item state).bind fun _ => looks_pure _
  · exact (engine.steady_runBuiltin (coupling_extends state.heap) common builtin args
      fun same => absurd same push).touches _

theorem touches_act {α : Type} {named : List Ref} (machine : Machine) (action : Engine → Exec α)
    (h : ∀ depth, (action (machine.engine depth)).Touches named state) :
    (machine.act action).Touches named state := (h _).congr (act_apply machine action state)

theorem touches_disabled (depth : Nat) (method : Method) (args named : List Ref) :
    ((machine.builtinsOnly.engine depth).invoke method.disabled args).Touches named state := by
  cases depth with
  | zero => exact touches_of_looks (looks_throw _) _ state
  | succ depth =>
    obtain ⟨error, fails⟩ :=
      Engine.runMethod_disabled (machine.builtinsOnly.engine depth) method args
    show (Engine.runMethod (machine.builtinsOnly.engine depth) _ args).Touches _ state
    rw [fails]
    exact touches_of_looks (looks_throw _) _ state

section

variable (complete : machine.Complete)

include complete

theorem touches_invoke (depth : Nat) (builtin : Builtin) (args : List Ref) :
    ((machine.builtinsOnly.engine depth).invoke (.builtin builtin) args).Touches
      ((Method.builtin builtin).named args) state := by
  cases depth with
  | zero => exact touches_of_looks (looks_throw _) _ state
  | succ depth =>
    show (Engine.runMethod (machine.builtinsOnly.engine depth) _ args).Touches _ state
    unfold Engine.runMethod
    split
    · exact touches_runBuiltin (commonSteady_builtinsOnly complete (coupling_extends _) depth)
        builtin args
    · exact touches_of_looks (looks_throw _) _ state

theorem touches_sendAs (depth : Nat) (type : TypeId) (slot : Nat) (args : List Ref) :
    ((machine.builtinsOnly.engine depth).sendAs type slot args).Touches
      (machine.namedIn type slot args) state := by
  rcases Engine.sendAs_apply (machine.builtinsOnly.engine depth) slot state type args with
    ⟨found, inSlot, ran⟩ | ⟨_, error, ran⟩
  · obtain ⟨method, sent, ⟨builtin, rfl, rfl⟩ | rfl⟩ := method?_builtinsOnly complete inSlot
    · unfold namedIn
      rw [sent]
      exact (touches_invoke complete depth builtin args).congr ran
    · exact (touches_disabled depth method args _).congr ran
  · exact (touches_of_looks (looks_throw (.error error)) _ state).congr ran

theorem touches_gentle {request : Request} (gentle : request.Gentle) (named : List Ref) :
    (machine.builtinsOnly.perform (.request request)).Touches named state := by
  have coupling := coupling_extends state.heap
  exact (machine.builtinsOnly.steady_act coupling (·.answer request) fun depth =>
    Engine.steady_answer_gentle _ coupling (commonSteady_builtinsOnly complete coupling depth)
      gentle).touches named

theorem touches_builtinsOnly {op : Operation}
    (builtin : ∀ method args, op = .method method args → ∃ builtin, method = .builtin builtin) :
    (machine.builtinsOnly.perform op).Touches (machine.named state op) state := by
  have coupling := coupling_extends state.heap
  cases op with
  | request request =>
    cases request with
    | set array index item => exact touches_setSlot array index item state
    | push array item => exact touches_push machine.builtinsOnly array item state
    | setField record index item => exact touches_setField record index item state
    | call slot args =>
      refine machine.builtinsOnly.touches_act (·.answer (.call slot args)) fun depth => ?_
      cases args with
      | nil =>
        have looks : Looks ((machine.builtinsOnly.engine depth).send slot []) := fun _ => rfl
        exact touches_attempt (touches_of_looks looks _ state)
      | cons receiver args =>
        refine touches_attempt ((touches_sendAs complete depth _ slot (receiver :: args)).congr ?_)
        exact Engine.send_eq_sendAs _ slot state receiver args
    | invoke type slot args =>
      exact machine.builtinsOnly.touches_act (·.answer (.invoke type slot args)) fun depth =>
        touches_attempt (touches_sendAs complete depth type slot args)
    | _ =>
      refine touches_gentle complete ?_ _
      trivial
  | method method args =>
    obtain ⟨own, rfl⟩ := builtin method args rfl
    exact machine.builtinsOnly.touches_act (·.invoke (.builtin own) args) fun depth =>
      touches_invoke complete depth own args
  | element value index => exact (steady_element coupling machine.builtinsOnly value index).touches _
  | part value start stop =>
    exact (steady_part coupling machine.builtinsOnly value start stop).touches _
  | concat first second =>
    exact (steady_newString coupling machine.builtinsOnly (first ++ second)).touches _
  | read text => exact (steady_readValues coupling machine.builtinsOnly text).touches _

/-- **An operation of builtin types changes nothing but what it names.** -/
theorem keepsBut_perform {op : Operation} (stays : machine.StaysBuiltin state op) :
    state.heap.KeepsBut (machine.named state op) ((machine.perform op).last state).heap :=
  (touches_builtinsOnly complete stays.method).congr stays.same

end

mutual

theorem build_builtinsOnly (machine : Machine) :
    (literal : Literal) → machine.builtinsOnly.build literal = machine.build literal
  | .none | .bool _ | .int _ | .float _ | .string _ => rfl
  | .array items => by
    rw [build, build, buildAll_builtinsOnly machine items]
    rfl

theorem buildAll_builtinsOnly (machine : Machine) :
    (literals : List Literal) → machine.builtinsOnly.buildAll literals = machine.buildAll literals
  | [] => rfl
  | literal :: rest => by
    rw [buildAll, buildAll, build_builtinsOnly machine literal, buildAll_builtinsOnly machine rest]

end

theorem runBuiltin_builtinsOnly (machine : Machine) (depth : Nat) {builtin : Builtin}
    {args : List Ref} (direct : (Operation.method (.builtin builtin) args).Direct) :
    (machine.builtinsOnly.engine depth).runBuiltin builtin args =
      (machine.engine depth).runBuiltin builtin args := by
  cases builtin with
  | common => exact direct.elim
  | string own => rfl
  | array own =>
    cases own with
    | join | contains | dedupe => exact direct.elim
    | _ => rfl

theorem invoke_builtinsOnly (machine : Machine) (depth : Nat) {builtin : Builtin}
    {args : List Ref} (direct : (Operation.method (.builtin builtin) args).Direct) :
    (machine.builtinsOnly.engine depth).invoke (.builtin builtin) args =
      (machine.engine depth).invoke (.builtin builtin) args := by
  cases depth with
  | zero => rfl
  | succ depth =>
    show Engine.runMethod (machine.builtinsOnly.engine depth) _ args =
      Engine.runMethod (machine.engine depth) _ args
    unfold Engine.runMethod Engine.runBody
    dsimp only
    rw [runBuiltin_builtinsOnly machine depth direct]

/-- An operation that looks for no methods stays builtin, whatever types are registered. -/
theorem staysBuiltin_of_direct {op : Operation} (direct : op.Direct) :
    machine.StaysBuiltin state op := by
  cases op with
  | request request =>
    refine ⟨nofun, ?_⟩
    cases request with
    | text | equal | hash | call | invoke | printLine => exact direct.elim
    | _ => rfl
  | method method args =>
    cases method with
    | builtin builtin =>
      refine ⟨fun _ _ same => ⟨builtin, ((Operation.method.inj same).1).symm⟩, ?_⟩
      exact (congrFun (invoke_builtinsOnly machine _ direct) state).symm
    | _ => exact direct.elim
  | read text =>
    refine ⟨nofun, ?_⟩
    show machine.readValues text state = machine.builtinsOnly.readValues text state
    unfold readValues
    simp only [buildAll_builtinsOnly]
  | _ => exact ⟨nofun, rfl⟩

/-! ## Any number of operations -/

/-- The operations are of builtin types, and none of them names one of the boxes. -/
inductive Spares (machine : Machine) (kept : List Ref) : State → List Operation → Prop where
  | nil (state : State) : Spares machine kept state []
  | cons {state : State} {op : Operation} {ops : List Operation} :
      machine.StaysBuiltin state op → (∀ ref ∈ kept, ref ∉ machine.named state op) →
        Spares machine kept ((machine.perform op).last state) ops →
          Spares machine kept state (op :: ops)

/-- **Boxes that are not named stay as they are.** -/
theorem Spares.holds (complete : machine.Complete) {kept : List Ref} {ops : List Operation}
    (spares : machine.Spares kept state ops) {ref : Ref} (mem : ref ∈ kept) {box : Box}
    (held : state.heap.Holds ref box) : (machine.after ops state).heap.Holds ref box := by
  induction spares with
  | nil => exact held
  | cons stays unnamed _ ih =>
    exact ih ((keepsBut_perform complete stays).holds ref box held (unnamed ref mem))

/-! ## Shared elements -/

/-- The action ends with a new array, and all boxes from before are as they were. The elements of
the array are the very ones that `items` picks from the sources, and stay those as long as neither
it nor a source is named. No operation that names only the new array changes a source, nor the
other way round. -/
def SharesWith (machine : Machine) (state : State) (action : Exec Ref) (sources : List Ref)
    (items : Heap → List Ref) : Prop :=
  ∃ new after, action state = .ok new after ∧ new ∉ sources ∧ state.heap.Extends after.heap ∧
    (∀ ops, machine.Spares (new :: sources) after ops →
      (machine.after ops after).heap.items new = items (machine.after ops after).heap) ∧
    ∀ source ∈ sources, ∀ later op box, machine.StaysBuiltin later op →
      (machine.named later op = [new] → later.heap.Holds source box →
        ((machine.perform op).last later).heap.Holds source box) ∧
      (machine.named later op = [source] → later.heap.Holds new box →
        ((machine.perform op).last later).heap.Holds new box)

/-- A new array of what is picked from arrays shares the elements with them. -/
theorem shares_newArray (complete : machine.Complete) {action : Exec Ref} {sources : List Ref}
    {items : Heap → List Ref} (present : ∀ source ∈ sources, source.index < state.heap.size)
    (ran : action state = machine.newArray (items state.heap) state)
    (picks : ∀ later : Heap, (∀ source ∈ sources, later.items source = state.heap.items source) →
      items later = items state.heap) : machine.SharesWith state action sources items := by
  let new : Ref := ⟨state.heap.size⟩
  let box : Box := ⟨machine.ids.array, .array (.ofItems machine.noneValue (items state.heap))⟩
  have apart : ∀ source ∈ sources, source ≠ new := by
    rintro source mem rfl
    exact absurd (present _ mem) (Nat.lt_irrefl _)
  let made : State := { state with heap := (state.heap.alloc box).2 }
  refine ⟨new, made, ran, fun mem => apart new mem rfl, Heap.extends_alloc state.heap box, ?_, ?_⟩
  · intro ops spares
    have own := spares.holds complete (.head _) (state.heap.holds_alloc box)
    have same : ∀ source ∈ sources, (machine.after ops made).heap.items source =
        state.heap.items source := by
      intro source mem
      have held := Heap.holds_get (present source mem)
      exact Heap.items_of_holds held (spares.holds complete (.tail _ mem) (held.alloc box))
    rw [picks _ same, Heap.items_of_array (by rw [own.get]), Buffer.live_ofItems]
  · intro source mem later op held stays
    have kept := keepsBut_perform complete stays
    refine ⟨fun named present => ?_, fun named present => ?_⟩
    · refine kept.holds source held present ?_
      rw [named, List.mem_singleton]
      exact apart source mem
    · refine kept.holds new held present ?_
      rw [named, List.mem_singleton]
      exact (apart source mem).symm

section

variable (complete : machine.Complete) {array other : Ref} {buffer content : Buffer}
  (held : (state.heap.get array).payload = .array buffer)

include complete held

theorem shares_part (start stop : Int64) :
    machine.SharesWith state (machine.perform (.part array start stop)) [array] fun heap =>
      Position.slice (heap.items array) start stop := by
  refine shares_newArray complete ?_ ?_ ?_
  · intro source mem
    rw [List.mem_singleton.1 mem]
    exact Heap.lt_size_of_array held
  · show machine.part array start stop state = _
    unfold part
    rw [bind_ok (payload_ok array state), held, Heap.items_of_array held]
  · intro later same
    rw [same array (.head _)]

theorem shares_concat (held' : (state.heap.get other).payload = .array content) :
    machine.SharesWith state (machine.perform (.method (.builtin (.array .concat)) [array, other]))
      [array, other] fun heap => heap.items array ++ heap.items other := by
  refine shares_newArray complete ?_ ?_ ?_
  · intro source mem
    rcases List.mem_pair.1 mem with rfl | rfl
    · exact Heap.lt_size_of_array held
    · exact Heap.lt_size_of_array held'
  · have accepted : (Builtin.array .concat).arity.accepts [array, other].length = true := rfl
    obtain ⟨depth, same⟩ := machine.invoke_builtin state accepted
    show machine.act (·.invoke (.builtin (.array .concat)) [array, other]) state = _
    rw [act_apply, same, Heap.items_of_array held, Heap.items_of_array held']
    have received : Arguments.receiver .array [array, other] state = .ok buffer state :=
      Arguments.receiver_ok (by rw [held]; rfl)
    have required : Arguments.required .array [array, other] 1 state = .ok content state :=
      Arguments.required_ok rfl (by rw [held']; rfl)
    exact (bind_ok received).trans (bind_ok required)
  · intro later same
    rw [same array (by simp), same other (by simp)]

end

/-- **Operations of builtin types change nothing but what they name.** However such an operation
ends, every box is still there with its type and its kind, and every box that it does not name is as
it was; only `set`, `push` and the replacement of a field name one. Operations that look for no
methods are always such ones, whatever types are registered. So boxes that are never named stay as
they are whatever is done, and a slice or a concatenation is a new array of the very elements of its
sources: what becomes of an element is seen through both, and what is done to the one array does not
change the other. -/
theorem builtin_operations_spare (machine : Machine) (complete : machine.Complete) :
    (∀ state op, machine.StaysBuiltin state op →
      state.heap.KeepsBut (machine.named state op) ((machine.perform op).last state).heap) ∧
    (∀ state op, op.Direct → machine.StaysBuiltin state op) ∧
    (∀ kept state ops, machine.Spares kept state ops → ∀ ref ∈ kept, ∀ box,
      state.heap.Holds ref box → (machine.after ops state).heap.Holds ref box) ∧
    ∀ state array buffer, (state.heap.get array).payload = .array buffer →
      (∀ start stop, machine.SharesWith state (machine.perform (.part array start stop)) [array]
        fun heap => Position.slice (heap.items array) start stop) ∧
      ∀ other content, (state.heap.get other).payload = .array content →
        machine.SharesWith state
          (machine.perform (.method (.builtin (.array .concat)) [array, other])) [array, other]
            fun heap => heap.items array ++ heap.items other := by
  refine ⟨fun state op => keepsBut_perform complete, fun state op => staysBuiltin_of_direct, ?_, ?_⟩
  · intro kept state ops spares ref mem box held
    exact spares.holds complete mem held
  · intro state array buffer held
    exact ⟨shares_part complete held, fun other content => shares_concat complete held⟩

/-- On a machine with a type whose values change an array when their text is made, and which are not
hashed by a method of theirs: the hash of such a value changes nothing, a slice of the array shares
its first element, a push to the array names it, and the text of the array does not stay builtin. -/
theorem builtin_operations_spare_meddling :
    meddlingState.heap.KeepsBut []
      ((meddling.perform (.request (.hash ⟨6⟩))).last meddlingState).heap ∧
    meddlingState.heap.KeepsBut [⟨7⟩]
      ((meddling.perform (.request (.push ⟨7⟩ ⟨1⟩))).last meddlingState).heap ∧
    meddling.SharesWith meddlingState (meddling.perform (.part ⟨7⟩ 0 1)) [⟨7⟩]
      (fun heap => Position.slice (heap.items ⟨7⟩) 0 1) ∧
    ¬meddling.StaysBuiltin meddlingState (.request (.text ⟨7⟩)) := by
  have complete : meddling.Complete := fun type => by cases type <;> rfl
  obtain ⟨keeps, direct, _, shares⟩ := builtin_operations_spare meddling complete
  have held : (meddlingState.heap.get ⟨7⟩).payload = .array ⟨#[⟨6⟩, ⟨2⟩], 2⟩ := rfl
  have hash : meddling.perform (.request (.hash ⟨6⟩)) meddlingState =
      .ok (.ok (Engine.boxHash ⟨6⟩)) meddlingState := rfl
  have hash' : meddling.builtinsOnly.perform (.request (.hash ⟨6⟩)) meddlingState =
      .ok (.ok (Engine.boxHash ⟨6⟩)) meddlingState := rfl
  have builtin : meddling.StaysBuiltin meddlingState (.request (.hash ⟨6⟩)) :=
    ⟨nofun, hash.trans hash'.symm⟩
  have push := direct meddlingState (.request (.push ⟨7⟩ ⟨1⟩)) trivial
  refine ⟨keeps _ _ builtin, keeps _ _ push, (shares _ _ _ held).1 0 1, fun stays => ?_⟩
  have inside : meddlingState.heap.Holds ⟨7⟩ (meddlingState.heap.get ⟨7⟩) := rfl
  have same := Heap.items_of_holds inside ((keeps _ _ stays).holds ⟨7⟩ _ inside nofun)
  have changed : ((meddling.perform (.request (.text ⟨7⟩))).last meddlingState).heap.items ⟨7⟩ =
      [⟨6⟩, ⟨0⟩, ⟨1⟩] := rfl
  rw [changed, Heap.items_of_array held] at same
  exact absurd same (by decide)

end Machine

end BoxedValues
