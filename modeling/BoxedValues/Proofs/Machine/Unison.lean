import BoxedValues.Proofs.Machine.Coupling
import BoxedValues.Proofs.Machine.Framing

/-!
# What a machine does, side by side

Run from states that are coupled, the functions of a machine end alike.

* What only makes values asks for no more than a `Coupling`. So do the methods of the builtin types
  except for `push`, as long as the common methods in the table are steady (`Engine.CommonSteady`):
  they call no others.
* The rest, and with it every program of a registered method, asks for a `FreeCoupling`;
  `Machine.steady_invoke` is the induction on how deeply calls are nested.
-/

set_option autoImplicit false

namespace BoxedValues

open Exec

variable {S : State → State → Prop} {α : Type}

/-! ## Making values -/

namespace Machine

section

variable (coupling : Coupling S) (machine : Machine)

include coupling

theorem steady_newInt (value : Int64) : Steady S (machine.newInt value) :=
  steady_alloc coupling _ ⟨nofun, rfl⟩

theorem steady_newFloat (value : Double) : Steady S (machine.newFloat value) :=
  steady_alloc coupling _ ⟨nofun, rfl⟩

theorem steady_newString (bytes : Bytes) : Steady S (machine.newString bytes) :=
  steady_alloc coupling _ ⟨nofun, rfl⟩

theorem steady_newText (text : List Char) : Steady S (machine.newText text) :=
  steady_newString coupling machine _

theorem steady_newRecord (type : TypeId) (fields : List Ref) : Steady S (newRecord type fields) :=
  steady_alloc coupling _ ⟨nofun, rfl⟩

theorem steady_newBuffer {buffer : Buffer} (room : buffer.length ≤ buffer.capacity) :
    Steady S (machine.newBuffer buffer) := by
  refine steady_alloc coupling _ ⟨?_, rfl⟩
  rintro _ ⟨⟩
  exact room

theorem steady_newArray (items : List Ref) : Steady S (machine.newArray items) := by
  refine steady_newBuffer coupling machine ?_
  rw [Buffer.capacity_ofItems]
  exact Nat.le_max_right 1 items.length

theorem steady_newFilledArray (length capacity : Nat) :
    Steady S (machine.newFilledArray length capacity) := by
  refine steady_newBuffer coupling machine ?_
  rw [Buffer.capacity_filled]
  exact Nat.le_max_right capacity length

theorem steady_newTexts (texts : List (List Char)) : Steady S (machine.newTexts texts) :=
  (steady_mapM texts fun text _ => steady_newText coupling machine text).bind
    (steady_newArray coupling machine)

theorem steady_element (value : Ref) (index : Int64) : Steady S (machine.element value index) := by
  refine (unison_payload coupling value).bind fun payload other twin => ?_
  rcases twin.eq_or_array with rfl | ⟨buffer, buffer', rfl, rfl, same⟩
  · split
    · split
      · exact steady_newString coupling machine _
      · exact steady_pure _
    · exact steady_pure _
    · exact steady_pure _
  · simp only [same.live]
    exact steady_pure _

theorem steady_part (value : Ref) (start stop : Int64) :
    Steady S (machine.part value start stop) := by
  refine (unison_payload coupling value).bind fun payload other twin => ?_
  rcases twin.eq_or_array with rfl | ⟨buffer, buffer', rfl, rfl, same⟩
  · split
    · exact steady_newString coupling machine _
    · exact steady_newArray coupling machine _
    · exact steady_pure _
  · simp only [same.live]
    exact steady_newArray coupling machine _

end

mutual

theorem steady_build (coupling : Coupling S) (machine : Machine) :
    (literal : Literal) → Steady S (machine.build literal)
  | .none => steady_pure _
  | .bool _ => steady_pure _
  | .int value => steady_newInt coupling machine value
  | .float value => steady_newFloat coupling machine value
  | .string bytes => steady_newString coupling machine bytes
  | .array items => by
    rw [build]
    exact (steady_buildAll coupling machine items).bind (steady_newArray coupling machine)

theorem steady_buildAll (coupling : Coupling S) (machine : Machine) :
    (literals : List Literal) → Steady S (machine.buildAll literals)
  | [] => steady_pure _
  | literal :: rest => by
    rw [buildAll]
    apply (steady_build coupling machine literal).bind
    intro _
    exact (steady_buildAll coupling machine rest).bind fun _ => steady_pure _

end

theorem steady_readValues (coupling : Coupling S) (machine : Machine) (text : List Char) :
    Steady S (machine.readValues text) := by
  unfold readValues
  split
  · exact (steady_buildAll coupling machine _).bind fun _ => steady_pure _
  · exact steady_pure _

end Machine

/-! ## Arguments -/

/-- What twins hold is related. -/
def Accessor.Sees (held : Accessor α) (R : α → α → Prop) : Prop :=
  ∀ payload other, payload.Twin other →
    (∃ content content', held.get? payload = some content ∧ held.get? other = some content' ∧
      R content content') ∨ held.get? payload = .none ∧ held.get? other = .none

namespace Accessor

theorem sees_eq {held : Accessor α}
    (same : ∀ payload other : Payload, payload.Twin other → held.get? other = held.get? payload) :
    held.Sees Eq := by
  intro payload other twin
  rw [same payload other twin]
  cases held.get? payload with
  | none => exact .inr ⟨rfl, rfl⟩
  | some content => exact .inl ⟨content, content, rfl, rfl, rfl⟩

theorem sees_none : none.Sees Eq := sees_eq fun _ _ twin => by simp only [none, twin.isNone]

theorem sees_bool : bool.Sees Eq := sees_eq fun _ _ twin => twin.bool?

theorem sees_int : int.Sees Eq := sees_eq fun _ _ twin => twin.int?

theorem sees_float : float.Sees Eq := sees_eq fun _ _ twin => twin.float?

theorem sees_string : string.Sees Eq := sees_eq fun _ _ twin => twin.string?

theorem sees_array : array.Sees Buffer.Twin := by
  intro payload other twin
  rcases twin.eq_or_array with rfl | ⟨buffer, buffer', rfl, rfl, same⟩
  · cases other with
    | array buffer => exact .inl ⟨buffer, buffer, rfl, rfl, .refl buffer⟩
    | _ => exact .inr ⟨rfl, rfl⟩
  · exact .inl ⟨buffer, buffer', rfl, rfl, same⟩

end Accessor

namespace Arguments

variable {held : Accessor α} {R : α → α → Prop} (args : List Ref) (index : Nat)

theorem steady_given : Steady S (given args index) := by
  unfold given
  split
  · exact steady_pure _
  · exact steady_throw _

variable (coupling : Coupling S)

include coupling

theorem unison_receiver (sees : held.Sees R) :
    InUnison S R (receiver held args) (receiver held args) := by
  apply (steady_given args 0).bind
  intro value
  refine (unison_box coupling value).bind fun box other twin => ?_
  rcases sees _ _ twin.payload with ⟨content, content', found, found', same⟩ | ⟨found, found'⟩
  · rw [found, found']
    exact unison_pure same
  · rw [found, found', twin.typeId]
    exact unison_throw _

theorem unison_required (sees : held.Sees R) :
    InUnison S R (required held args index) (required held args index) := by
  apply (steady_given args index).bind
  intro value
  refine (unison_box coupling value).bind fun box other twin => ?_
  rcases sees _ _ twin.payload with ⟨content, content', found, found', same⟩ | ⟨found, found'⟩
  · rw [found, found']
    exact unison_pure same
  · rw [found, found', twin.typeId]
    exact unison_throw _

theorem steady_optional (sees : held.Sees Eq) : Steady S (optional held args index) := by
  unfold optional
  split
  · exact steady_pure _
  · refine (unison_payload coupling _).bind fun payload other twin => ?_
    rw [twin.isNone]
    split
    · exact steady_pure _
    · exact Steady.bind (unison_required args index coupling sees) fun _ => steady_pure _

end Arguments

theorem Machine.steady_runString (coupling : Coupling S) (machine : Machine) (method : StringMethod)
    (args : List Ref) : Steady S (machine.runString method args) := by
  refine Steady.bind (Arguments.unison_receiver args coupling Accessor.sees_string) fun bytes => ?_
  have newText := steady_newText coupling machine
  have newTexts := steady_newTexts coupling machine
  have string (index : Nat) : Steady S (Arguments.required .string args index) :=
    Arguments.unison_required args index coupling Accessor.sees_string
  cases method with
  | length => exact steady_newInt coupling machine _
  | toLower | toUpper | trim => exact newText _
  | lines | chars => exact newTexts _
  | padLeft =>
    have width : Steady S (Arguments.required .int args 1) :=
      Arguments.unison_required args 1 coupling Accessor.sees_int
    refine width.bind fun _ => (string 2).bind fun _ => ?_
    split
    · exact steady_newString coupling machine _
    · exact Arguments.steady_given args 0
  | trimStart | trimEnd =>
    exact (Arguments.steady_optional args 1 coupling Accessor.sees_string).bind fun _ => newText _
  | split => exact (string 1).bind fun _ => newTexts _
  | parseInt =>
    refine (Arguments.steady_optional args 1 coupling Accessor.sees_int).bind fun radix => ?_
    split
    · exact steady_newInt coupling machine _
    · exact steady_pure _
  | parseFloat =>
    dsimp only
    split
    · exact steady_newFloat coupling machine _
    · exact steady_pure _

/-! ## Dispatch -/

namespace Engine

variable (engine : Engine)

/-- The common methods that the engine finds in its table are steady. -/
def CommonSteady (S : State → State → Prop) (engine : Engine) : Prop :=
  ∀ id entry common method, engine.machine.table.entry id = .ok entry →
    entry.common? common = some method → ∀ args, Steady S (engine.invoke method args)

variable (coupling : Coupling S)

include coupling

/-- The entry of a value's type is from the table. -/
theorem unison_entryOf (value : Ref) :
    InUnison S (fun entry other => entry = other ∧ ∃ id, engine.machine.table.entry id = .ok entry)
      (engine.entryOf value) (engine.entryOf value) := by
  refine (steady_typeId coupling value).bind fun id => ?_
  cases found : engine.machine.table.entry id with
  | ok entry => exact unison_pure ⟨rfl, id, found⟩
  | error error => exact unison_throw _

variable (common : engine.CommonSteady S)

include common

theorem steady_textOf (value : Ref) : Steady S (engine.textOf value) := by
  refine (unison_entryOf engine coupling value).bind ?_
  rintro entry _ ⟨rfl, id, found⟩
  split
  · exact steady_fail _
  · rename_i method sent
    refine (common id entry _ method found sent [value]).bind fun result => ?_
    refine steady_bind_box coupling result (fun _ _ _ => rfl) fun box => ?_
    split
    · exact steady_pure _
    · exact steady_fail _

theorem steady_areEqual (first second : Ref) : Steady S (engine.areEqual first second) := by
  unfold areEqual
  split
  · exact steady_pure _
  refine (steady_typeId coupling first).bind fun type => (steady_typeId coupling second).bind ?_
  intro other
  split
  · exact steady_pure _
  refine (unison_entryOf engine coupling first).bind ?_
  rintro entry _ ⟨rfl, id, found⟩
  split
  · exact steady_pure _
  · rename_i method sent
    refine (common id entry _ method found sent [first, second]).bind fun result => ?_
    refine steady_bind_box coupling result (fun _ _ _ => rfl) fun box => ?_
    split
    · exact steady_pure _
    · exact steady_fail _

theorem steady_hashOf (value : Ref) : Steady S (engine.hashOf value) := by
  refine (unison_entryOf engine coupling value).bind ?_
  rintro entry _ ⟨rfl, id, found⟩
  split
  · exact steady_pure _
  · rename_i method sent
    refine (common id entry _ method found sent [value]).bind fun result => ?_
    refine steady_bind_box coupling result (fun _ _ _ => rfl) fun box => ?_
    split
    · exact steady_pure _
    · exact steady_fail _

theorem steady_texts (values : List Ref) : Steady S (engine.texts values) :=
  steady_mapM values fun value _ =>
    (steady_textOf engine coupling common value).bind (steady_bytesOf coupling)

theorem steady_hashes (values : List Ref) : Steady S (engine.hashes values) :=
  steady_mapM values fun value _ => steady_hashOf engine coupling common value

theorem steady_equalPairs (pairs : List (Ref × Ref)) : Steady S (engine.equalPairs pairs) := by
  induction pairs with
  | nil => exact steady_pure _
  | cons pair rest ih =>
    apply (steady_areEqual engine coupling common pair.1 pair.2).bind
    intro same
    split
    · exact ih
    · exact steady_pure _

theorem steady_equalsAny (target : Ref) (values : List Ref) :
    Steady S (engine.equalsAny target values) := by
  induction values with
  | nil => exact steady_pure _
  | cons value rest ih =>
    apply (steady_areEqual engine coupling common value target).bind
    intro same
    split
    · exact steady_pure _
    · exact ih

theorem steady_printLine (values : List Ref) : Steady S (engine.printLine values) :=
  (steady_texts engine coupling common values).bind fun _ => steady_write coupling _

/-! ## Methods of the builtin types -/

omit common in
theorem steady_newBracketed (texts : List Bytes) : Steady S (engine.newBracketed texts) := by
  unfold newBracketed
  split
  · exact steady_throw _
  · dsimp only
    split
    · exact Machine.steady_newString coupling engine.machine _
    · exact steady_throw _

theorem steady_arrayText (array : Ref) (items : List Ref) :
    Steady S (engine.arrayText array items) := by
  unfold arrayText
  split
  · exact Machine.steady_newString coupling engine.machine _
  refine (steady_marking coupling textMarks array
    (steady_texts engine coupling common items)).bind fun texts => ?_
  split
  · exact steady_newBracketed engine coupling _
  · exact Machine.steady_newString coupling engine.machine _

theorem steady_text (type : BuiltinType) (args : List Ref) : Steady S (engine.text type args) := by
  cases type with
  | none =>
    exact Steady.bind (Arguments.unison_receiver args coupling Accessor.sees_none) fun _ =>
      steady_pure _
  | int =>
    exact Steady.bind (Arguments.unison_receiver args coupling Accessor.sees_int) fun _ =>
      Machine.steady_newText coupling engine.machine _
  | float =>
    exact Steady.bind (Arguments.unison_receiver args coupling Accessor.sees_float) fun _ =>
      Machine.steady_newText coupling engine.machine _
  | bool =>
    exact Steady.bind (Arguments.unison_receiver args coupling Accessor.sees_bool) fun _ =>
      steady_pure _
  | string =>
    exact Steady.bind (Arguments.unison_receiver args coupling Accessor.sees_string) fun _ =>
      Arguments.steady_given args 0
  | array =>
    refine (Arguments.unison_receiver args coupling Accessor.sees_array).bind ?_
    intro buffer buffer' twin
    rw [twin.live]
    exact (Arguments.steady_given args 0).bind fun array =>
      steady_arrayText engine coupling common array buffer.live

theorem steady_arraysEqual (first second : Ref) (items others : List Ref) :
    Steady S (engine.arraysEqual first second items others) := by
  refine (steady_marking coupling equalityMarks _ ?_).bind fun _ => steady_pure _
  split
  · exact steady_pure _
  · exact steady_equalPairs engine coupling common _

theorem steady_equal (type : BuiltinType) (args : List Ref) :
    Steady S (engine.equal type args) := by
  have compared (verdict : Payload → Bool)
      (same : ∀ payload other : Payload, payload.Twin other → verdict other = verdict payload) :
      Steady S (do return verdict (← Exec.payload (← Arguments.given args 1))) := by
    refine (Arguments.steady_given args 1).bind fun value => ?_
    refine (unison_payload coupling value).bind fun payload other twin => unison_pure ?_
    exact (same payload other twin).symm
  cases type with
  | none =>
    exact Steady.bind (Arguments.unison_receiver args coupling Accessor.sees_none) fun _ =>
      compared Payload.isNone fun _ _ twin => twin.isNone
  | int =>
    exact Steady.bind (Arguments.unison_receiver args coupling Accessor.sees_int) fun value =>
      compared (fun payload => payload.int? == some value) fun _ _ twin => by rw [twin.int?]
  | float =>
    exact Steady.bind (Arguments.unison_receiver args coupling Accessor.sees_float) fun value =>
      compared (fun payload => payload.float?.any (value.ieeeEq ·)) fun _ _ twin => by
        rw [twin.float?]
  | bool =>
    exact Steady.bind (Arguments.unison_receiver args coupling Accessor.sees_bool) fun value =>
      compared (fun payload => payload.bool? == some value) fun _ _ twin => by rw [twin.bool?]
  | string =>
    exact Steady.bind (Arguments.unison_receiver args coupling Accessor.sees_string) fun value =>
      compared (fun payload => payload.string? == some value) fun _ _ twin => by rw [twin.string?]
  | array =>
    refine (Arguments.unison_receiver args coupling Accessor.sees_array).bind ?_
    intro buffer buffer' twin
    rw [twin.live]
    refine (Arguments.steady_given args 1).bind fun value => ?_
    refine (unison_payload coupling value).bind fun payload other twin' => ?_
    have compared (others : List Ref) : Steady S (do
        engine.arraysEqual (← Arguments.given args 0) value buffer.live others) :=
      (Arguments.steady_given args 0).bind fun array =>
        steady_arraysEqual engine coupling common array value buffer.live others
    rcases twin'.eq_or_array with rfl | ⟨content, content', rfl, rfl, same⟩
    · split
      · exact compared _
      · exact steady_pure _
    · simp only [Payload.array?, same.live]
      exact compared _

theorem steady_hashElements (array : Ref) (items : List Ref) :
    Steady S (engine.hashElements array items) := by
  refine (steady_marking coupling hashMarks array
    (steady_hashes engine coupling common items)).bind fun hashes => ?_
  split
  · exact steady_pure _
  · exact steady_pure _

theorem steady_hash (type : BuiltinType) (args : List Ref) : Steady S (engine.hash type args) := by
  cases type with
  | none =>
    exact Steady.bind (Arguments.unison_receiver args coupling Accessor.sees_none) fun _ =>
      steady_pure _
  | int =>
    exact Steady.bind (Arguments.unison_receiver args coupling Accessor.sees_int) fun _ =>
      steady_pure _
  | float =>
    exact Steady.bind (Arguments.unison_receiver args coupling Accessor.sees_float) fun _ =>
      steady_pure _
  | bool =>
    exact Steady.bind (Arguments.unison_receiver args coupling Accessor.sees_bool) fun _ =>
      steady_pure _
  | string =>
    exact Steady.bind (Arguments.unison_receiver args coupling Accessor.sees_string) fun _ =>
      steady_pure _
  | array =>
    refine (Arguments.unison_receiver args coupling Accessor.sees_array).bind ?_
    intro buffer buffer' twin
    rw [twin.live]
    exact (Arguments.steady_given args 0).bind fun array =>
      steady_hashElements engine coupling common array buffer.live

theorem steady_runCommon (type : BuiltinType) (method : CommonMethod) (args : List Ref) :
    Steady S (engine.runCommon type method args) := by
  cases method with
  | toText => exact steady_text engine coupling common type args
  | equal => exact (steady_equal engine coupling common type args).bind fun _ => steady_pure _
  | hash =>
    exact (steady_hash engine coupling common type args).bind fun _ =>
      Machine.steady_newInt coupling engine.machine _

theorem steady_dedupe (kept : List (Int64 × Ref)) (items : List Ref) :
    Steady S (engine.dedupe kept items) := by
  induction items generalizing kept with
  | nil => exact steady_pure _
  | cons item rest ih =>
    refine (steady_hashOf engine coupling common item).bind fun hash => ?_
    refine (steady_equalsAny engine coupling common item _).bind fun duplicate => ?_
    split
    · exact ih _
    · exact ih _

/-- Of the methods of arrays, only `push` changes an array. -/
theorem steady_runArray (method : ArrayMethod) (args : List Ref)
    (changes : method = .push → FreeCoupling S) : Steady S (engine.runArray method args) := by
  have newArray := Machine.steady_newArray coupling engine.machine
  have given := Arguments.steady_given (S := S) args
  refine (Arguments.unison_receiver args coupling Accessor.sees_array).bind ?_
  intro buffer buffer' twin
  dsimp only
  rw [twin.live, twin.length]
  cases method with
  | length => exact Machine.steady_newInt coupling engine.machine _
  | isEmpty => exact steady_pure _
  | push =>
    exact (given 0).bind fun array => (given 1).bind fun item =>
      (steady_push (changes rfl) engine.machine array item).bind fun _ => steady_pure _
  | concat =>
    refine (Arguments.unison_required args 1 coupling Accessor.sees_array).bind ?_
    intro other other' same
    rw [same.live]
    exact newArray _
  | join =>
    refine (Arguments.steady_optional args 1 coupling Accessor.sees_string).bind fun separator => ?_
    exact (steady_texts engine coupling common _).bind fun _ =>
      Machine.steady_newString coupling engine.machine _
  | contains =>
    exact (given 1).bind fun target =>
      (steady_equalsAny engine coupling common target _).bind fun _ => steady_pure _
  | dedupe => exact (steady_dedupe engine coupling common [] _).bind newArray
  | enumerate =>
    refine (steady_mapM _ fun entry _ => ?_).bind newArray
    exact (Machine.steady_newInt coupling engine.machine _).bind fun _ => newArray _

theorem steady_runBuiltin (builtin : Builtin) (args : List Ref)
    (changes : builtin = .array .push → FreeCoupling S) :
    Steady S (engine.runBuiltin builtin args) := by
  cases builtin with
  | common type method => exact steady_runCommon engine coupling common type method args
  | string method => exact Machine.steady_runString coupling engine.machine method args
  | array method =>
    exact steady_runArray engine coupling common method args fun push => changes (by rw [push])

end Engine

/-! ## Requests and programs -/

/-- The request neither changes an array or a record itself nor calls a method by its slot. -/
def Request.Gentle : Request → Prop
  | .set _ _ _ | .push _ _ | .setField _ _ _ | .call _ _ | .invoke _ _ _ => False
  | _ => True

namespace Engine

variable (engine : Engine)

theorem steady_answer_gentle (coupling : Coupling S) (common : engine.CommonSteady S)
    {request : Request} (gentle : request.Gentle) : Steady S (engine.answer request) := by
  cases request with
  | none | bool => exact steady_pure _
  | int value => exact Machine.steady_newInt coupling engine.machine value
  | float value => exact Machine.steady_newFloat coupling engine.machine value
  | string bytes => exact Machine.steady_newString coupling engine.machine bytes
  | array items => exact Machine.steady_newArray coupling engine.machine items
  | filledArray length capacity =>
    exact Machine.steady_newFilledArray coupling engine.machine length capacity
  | record type fields => exact Machine.steady_newRecord coupling type fields
  | typeOf value => exact steady_typeId coupling value
  | view value =>
    exact (unison_payload coupling value).bind fun _ _ twin => unison_pure twin.view.symm
  | text value => exact steady_attempt (steady_textOf engine coupling common value)
  | equal first second => exact steady_attempt (steady_areEqual engine coupling common first second)
  | hash value => exact steady_attempt (steady_hashOf engine coupling common value)
  | printLine items => exact steady_attempt (steady_printLine engine coupling common items)
  | set | push | setField | call | invoke => exact gentle.elim

variable (coupling : FreeCoupling S) (invoke : ∀ method args, Steady S (engine.invoke method args))

include coupling invoke

theorem steady_send (slot : Nat) (args : List Ref) : Steady S (engine.send slot args) := by
  unfold send
  split
  · exact steady_fail _
  refine (unison_entryOf engine coupling.toCoupling _).bind ?_
  rintro entry _ ⟨rfl, _, _⟩
  split
  · exact invoke _ _
  · exact steady_fail _

omit coupling in
theorem steady_sendAs (type : TypeId) (slot : Nat) (args : List Ref) :
    Steady S (engine.sendAs type slot args) := by
  refine (steady_ofExcept _).bind fun entry => ?_
  split
  · exact invoke _ _
  · exact steady_fail _

theorem steady_answer (request : Request) : Steady S (engine.answer request) := by
  cases request with
  | set array index item => exact steady_setSlot coupling array index item
  | push array item => exact steady_push coupling engine.machine array item
  | setField value index item => exact steady_setField coupling value index item
  | call slot args => exact steady_attempt (steady_send engine coupling invoke slot args)
  | invoke type slot args =>
    exact steady_attempt (steady_sendAs engine invoke type slot args)
  | _ =>
    exact steady_answer_gentle engine coupling.toCoupling (fun _ _ _ _ _ _ => invoke _) trivial

/-- Whatever a program asks for and does with the answers, it ends alike in both states. -/
theorem steady_run (program : Program α) : Steady S (engine.run program) := by
  induction program with
  | done result => exact steady_pure result
  | fail error => exact steady_fail error
  | ask request next ih => exact (steady_answer engine coupling invoke request).bind ih

theorem steady_runMethod (method : Method) (args : List Ref) :
    Steady S (engine.runMethod method args) := by
  unfold runMethod
  split
  · cases method with
    | builtin builtin =>
      exact steady_runBuiltin engine coupling.toCoupling (fun _ _ _ _ _ _ => invoke _) builtin args
        fun _ => coupling
    | function _ _ body => exact steady_run engine coupling invoke (body args)
    | closure _ _ captures body => exact steady_run engine coupling invoke (body captures args)
  · exact steady_fail _

end Engine

namespace Machine

variable (machine : Machine)

/-- Calls nested to any depth end alike in both states. -/
theorem steady_invoke (coupling : FreeCoupling S) (depth : Nat) :
    ∀ method args, Steady S (machine.invoke depth method args) := by
  induction depth with
  | zero => exact fun _ _ => steady_throw _
  | succ depth ih => exact Engine.steady_runMethod ⟨machine, machine.invoke depth⟩ coupling ih

/-- Both states allow calls to be nested equally deep. -/
theorem steady_act (coupling : Coupling S) (action : Engine → Exec α)
    (h : ∀ depth, Steady S (action (machine.engine depth))) : Steady S (machine.act action) := by
  intro state other related
  have same : machine.depth other = machine.depth state := by
    unfold depth
    rw [(coupling.twin related).size]
  rw [act_apply, act_apply, same]
  exact h _ state other related

end Machine

end BoxedValues
