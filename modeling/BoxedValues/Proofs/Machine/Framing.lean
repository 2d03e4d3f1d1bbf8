import BoxedValues.Literal.Build
import BoxedValues.Machine.Invoke
import BoxedValues.Proofs.Machine.Returning
import Mathlib.Logic.Relation

/-!
# What every run of a machine keeps

A relation between states that holds of every elementary change (`Frame`) holds of everything that
a machine does: of each builtin method, of each program of a registered method, whatever it asks
for, and of calls nested to any depth.

* `Engine.keeps_runMethod`: one method keeps the relation if the methods that it calls do;
* `Engine.run_bind`: programs are run one after another, so that a method which only hands on the
  result of a call does what the call does (`Engine.run_call`);
* `Machine.keeps_invoke`: by induction on the depth, methods keep it without any condition;
* `Machine.Runs.related`: hence so do whole runs of top-level operations.
-/

set_option autoImplicit false

namespace BoxedValues

open Exec

variable {R : State → State → Prop} (frame : Frame R)

/-! ## Making and changing values -/

namespace Machine

variable (machine : Machine)

include frame

theorem keeps_newInt (value : Int64) : Keeps R (machine.newInt value) :=
  keeps_alloc frame _ (by simp)

theorem keeps_newFloat (value : Double) : Keeps R (machine.newFloat value) :=
  keeps_alloc frame _ (by simp)

theorem keeps_newString (bytes : Bytes) : Keeps R (machine.newString bytes) :=
  keeps_alloc frame _ (by simp)

theorem keeps_newText (text : List Char) : Keeps R (machine.newText text) :=
  keeps_newString frame machine _

theorem keeps_newBuffer {buffer : Buffer} (room : buffer.length ≤ buffer.capacity) :
    Keeps R (machine.newBuffer buffer) := by
  apply keeps_alloc frame _
  intro held same
  cases same
  exact room

theorem keeps_newArray (items : List Ref) : Keeps R (machine.newArray items) := by
  refine keeps_newBuffer frame machine ?_
  rw [Buffer.capacity_ofItems]
  exact Nat.le_max_right 1 items.length

theorem keeps_newFilledArray (length capacity : Nat) :
    Keeps R (machine.newFilledArray length capacity) := by
  refine keeps_newBuffer frame machine ?_
  rw [Buffer.capacity_filled]
  exact Nat.le_max_right capacity length

theorem keeps_newTexts (texts : List (List Char)) : Keeps R (machine.newTexts texts) :=
  keeps_bind frame (keeps_mapM frame (keeps_newText frame machine) texts)
    (keeps_newArray frame machine)

theorem keeps_element (value : Ref) (index : Int64) : Keeps R (machine.element value index) := by
  apply keeps_bind frame (keeps_payload frame value)
  intro payload
  split
  · split
    · exact keeps_newString frame machine _
    · exact keeps_pure frame _
  · exact keeps_pure frame _
  · exact keeps_pure frame _

theorem keeps_part (value : Ref) (start stop : Int64) :
    Keeps R (machine.part value start stop) := by
  apply keeps_bind frame (keeps_payload frame value)
  intro payload
  split
  · exact keeps_newString frame machine _
  · exact keeps_newArray frame machine _
  · exact keeps_pure frame _

theorem keeps_push (array item : Ref) : Keeps R (machine.push array item) := by
  intro before after h
  rw [returns_iff] at h
  unfold push at h
  rw [bind_ok (payload_ok array before)] at h
  cases held : (before.heap.get array).payload with
  | array buffer =>
    simp only [held] at h
    cases h
    exact frame.push before array buffer _ item held
  | _ =>
    simp only [held] at h
    cases h
    exact frame.refl before

mutual

theorem keeps_build : (literal : Literal) → Keeps R (machine.build literal)
  | .none => keeps_pure frame _
  | .bool _ => keeps_pure frame _
  | .int value => keeps_newInt frame machine value
  | .float value => keeps_newFloat frame machine value
  | .string bytes => keeps_newString frame machine bytes
  | .array items => by
    rw [build]
    exact keeps_bind frame (keeps_buildAll items) (keeps_newArray frame machine)

theorem keeps_buildAll : (literals : List Literal) → Keeps R (machine.buildAll literals)
  | [] => keeps_pure frame _
  | literal :: rest => by
    rw [buildAll]
    apply keeps_bind frame (keeps_build literal)
    intro _
    exact keeps_bind frame (keeps_buildAll rest) fun _ => keeps_pure frame _

end

theorem keeps_readValues (text : List Char) : Keeps R (machine.readValues text) := by
  unfold readValues
  split
  · exact keeps_bind frame (keeps_buildAll frame machine _) fun _ => keeps_pure frame _
  · exact keeps_pure frame _

end Machine

/-! ## Arguments -/

namespace Arguments

variable {α : Type} (held : Accessor α) (args : List Ref) (index : Nat)

include frame

theorem keeps_given : Keeps R (given args index) := by
  unfold given
  split
  · exact keeps_pure frame _
  · exact keeps_throw frame _

theorem keeps_receiver : Keeps R (receiver held args) := by
  apply keeps_bind frame (keeps_given frame args 0)
  intro value
  apply keeps_bind frame (keeps_box frame value)
  intro box
  split
  · exact keeps_pure frame _
  · exact keeps_fail frame _

theorem keeps_required : Keeps R (required held args index) := by
  apply keeps_bind frame (keeps_given frame args index)
  intro value
  apply keeps_bind frame (keeps_box frame value)
  intro box
  split
  · exact keeps_pure frame _
  · exact keeps_fail frame _

theorem keeps_optional : Keeps R (optional held args index) := by
  unfold optional
  split
  · exact keeps_pure frame _
  · apply keeps_bind frame (keeps_payload frame _)
    intro payload
    split
    · exact keeps_pure frame _
    · exact keeps_bind frame (keeps_required frame held args index) fun _ => keeps_pure frame _

end Arguments

theorem Machine.keeps_runString (frame : Frame R) (machine : Machine) (method : StringMethod)
    (args : List Ref) : Keeps R (machine.runString method args) := by
  apply keeps_bind frame (Arguments.keeps_receiver frame .string args)
  intro bytes
  have newText := keeps_newText frame machine
  have newTexts := keeps_newTexts frame machine
  cases method with
  | length => exact keeps_newInt frame machine _
  | toLower | toUpper | trim => exact newText _
  | lines | chars => exact newTexts _
  | padLeft =>
    apply keeps_bind frame (Arguments.keeps_required frame .int args 1)
    intro width
    apply keeps_bind frame (Arguments.keeps_required frame .string args 2)
    intro padding
    split
    · exact keeps_newString frame machine _
    · exact Arguments.keeps_given frame args 0
  | trimStart | trimEnd =>
    exact keeps_bind frame (Arguments.keeps_optional frame .string args 1) fun _ => newText _
  | split =>
    exact keeps_bind frame (Arguments.keeps_required frame .string args 1) fun _ => newTexts _
  | parseInt =>
    apply keeps_bind frame (Arguments.keeps_optional frame .int args 1)
    intro radix
    split
    · exact keeps_newInt frame machine _
    · exact keeps_pure frame _
  | parseFloat =>
    dsimp only
    split
    · exact keeps_newFloat frame machine _
    · exact keeps_pure frame _

/-! ## Dispatch and the methods that call others -/

namespace Engine

variable (engine : Engine) (invoke : ∀ method args, Keeps R (engine.invoke method args))

include frame

theorem keeps_entryOf (value : Ref) : Keeps R (engine.entryOf value) :=
  keeps_bind frame (keeps_typeId frame value) fun _ => keeps_ofExcept frame _

include invoke

theorem keeps_send (slot : Nat) (args : List Ref) : Keeps R (engine.send slot args) := by
  unfold send
  split
  · exact keeps_fail frame _
  · apply keeps_bind frame (keeps_entryOf frame engine _)
    intro entry
    split
    · exact invoke _ _
    · exact keeps_fail frame _

theorem keeps_sendAs (type : TypeId) (slot : Nat) (args : List Ref) :
    Keeps R (engine.sendAs type slot args) := by
  apply keeps_bind frame (keeps_ofExcept frame _)
  intro entry
  split
  · exact invoke _ _
  · exact keeps_fail frame _

theorem keeps_textOf (value : Ref) : Keeps R (engine.textOf value) := by
  apply keeps_bind frame (keeps_entryOf frame engine value)
  intro entry
  split
  · exact keeps_fail frame _
  · apply keeps_bind frame (invoke _ _)
    intro result
    apply keeps_bind frame (keeps_box frame result)
    intro box
    split
    · exact keeps_pure frame _
    · exact keeps_fail frame _

theorem keeps_areEqual (first second : Ref) : Keeps R (engine.areEqual first second) := by
  unfold areEqual
  split
  · exact keeps_pure frame _
  · apply keeps_bind frame (keeps_typeId frame first)
    intro type
    apply keeps_bind frame (keeps_typeId frame second)
    intro other
    split
    · exact keeps_pure frame _
    · apply keeps_bind frame (keeps_entryOf frame engine first)
      intro entry
      split
      · exact keeps_pure frame _
      · apply keeps_bind frame (invoke _ _)
        intro result
        apply keeps_bind frame (keeps_box frame result)
        intro box
        split
        · exact keeps_pure frame _
        · exact keeps_fail frame _

theorem keeps_hashOf (value : Ref) : Keeps R (engine.hashOf value) := by
  apply keeps_bind frame (keeps_entryOf frame engine value)
  intro entry
  split
  · exact keeps_pure frame _
  · apply keeps_bind frame (invoke _ _)
    intro result
    apply keeps_bind frame (keeps_box frame result)
    intro box
    split
    · exact keeps_pure frame _
    · exact keeps_fail frame _

theorem keeps_texts (values : List Ref) : Keeps R (engine.texts values) := by
  refine keeps_mapM frame ?_ values
  intro value
  exact keeps_bind frame (keeps_textOf frame engine invoke value) (keeps_bytesOf frame)

theorem keeps_hashes (values : List Ref) : Keeps R (engine.hashes values) :=
  keeps_mapM frame (keeps_hashOf frame engine invoke) values

theorem keeps_equalPairs (pairs : List (Ref × Ref)) : Keeps R (engine.equalPairs pairs) := by
  induction pairs with
  | nil => exact keeps_pure frame _
  | cons pair rest ih =>
    apply keeps_bind frame (keeps_areEqual frame engine invoke pair.1 pair.2)
    intro same
    split
    · exact ih
    · exact keeps_pure frame _

theorem keeps_equalsAny (target : Ref) (values : List Ref) :
    Keeps R (engine.equalsAny target values) := by
  induction values with
  | nil => exact keeps_pure frame _
  | cons value rest ih =>
    apply keeps_bind frame (keeps_areEqual frame engine invoke value target)
    intro same
    split
    · exact keeps_pure frame _
    · exact ih

theorem keeps_printLine (values : List Ref) : Keeps R (engine.printLine values) :=
  keeps_bind frame (keeps_texts frame engine invoke values) fun _ => keeps_write frame _

/-! ## Methods of the builtin types -/

omit invoke in
theorem keeps_newBracketed (texts : List Bytes) : Keeps R (engine.newBracketed texts) := by
  unfold newBracketed
  split
  · exact keeps_throw frame _
  · dsimp only
    split
    · exact Machine.keeps_newString frame engine.machine _
    · exact keeps_throw frame _

theorem keeps_text (type : BuiltinType) (args : List Ref) : Keeps R (engine.text type args) := by
  cases type with
  | none =>
    exact keeps_bind frame (Arguments.keeps_receiver frame .none args) fun _ => keeps_pure frame _
  | int =>
    exact keeps_bind frame (Arguments.keeps_receiver frame .int args) fun _ =>
      Machine.keeps_newText frame engine.machine _
  | float =>
    exact keeps_bind frame (Arguments.keeps_receiver frame .float args) fun _ =>
      Machine.keeps_newText frame engine.machine _
  | bool =>
    exact keeps_bind frame (Arguments.keeps_receiver frame .bool args) fun _ => keeps_pure frame _
  | string =>
    exact keeps_bind frame (Arguments.keeps_receiver frame .string args) fun _ =>
      Arguments.keeps_given frame args 0
  | array =>
    apply keeps_bind frame (Arguments.keeps_receiver frame .array args)
    intro buffer
    apply keeps_bind frame (Arguments.keeps_given frame args 0)
    intro array
    unfold arrayText
    split
    · exact Machine.keeps_newString frame engine.machine _
    · have marked := keeps_marking frame lawful_textMarks array
        (keeps_texts frame engine invoke buffer.live)
      apply keeps_bind frame marked
      intro texts
      split
      · exact keeps_newBracketed frame engine _
      · exact Machine.keeps_newString frame engine.machine _

theorem keeps_arraysEqual (first second : Ref) (items others : List Ref) :
    Keeps R (engine.arraysEqual first second items others) := by
  refine keeps_bind frame ?_ fun verdict => keeps_pure frame _
  refine keeps_marking frame lawful_equalityMarks _ ?_
  split
  · exact keeps_pure frame _
  · exact keeps_equalPairs frame engine invoke _

theorem keeps_equal (type : BuiltinType) (args : List Ref) : Keeps R (engine.equal type args) := by
  have compared : ∀ verdict : Payload → Bool,
      Keeps R (do return verdict (← Exec.payload (← Arguments.given args 1))) := fun verdict =>
    keeps_bind frame (Arguments.keeps_given frame args 1) fun value =>
      keeps_bind frame (keeps_payload frame value) fun _ => keeps_pure frame _
  cases type with
  | none =>
    exact keeps_bind frame (Arguments.keeps_receiver frame .none args) fun _ =>
      compared Payload.isNone
  | int =>
    exact keeps_bind frame (Arguments.keeps_receiver frame .int args) fun value =>
      compared fun payload => payload.int? == some value
  | float =>
    exact keeps_bind frame (Arguments.keeps_receiver frame .float args) fun value =>
      compared fun payload => payload.float?.any (value.ieeeEq ·)
  | bool =>
    exact keeps_bind frame (Arguments.keeps_receiver frame .bool args) fun value =>
      compared fun payload => payload.bool? == some value
  | string =>
    exact keeps_bind frame (Arguments.keeps_receiver frame .string args) fun value =>
      compared fun payload => payload.string? == some value
  | array =>
    apply keeps_bind frame (Arguments.keeps_receiver frame .array args)
    intro buffer
    apply keeps_bind frame (Arguments.keeps_given frame args 1)
    intro other
    apply keeps_bind frame (keeps_payload frame other)
    intro payload
    split
    · exact keeps_bind frame (Arguments.keeps_given frame args 0) fun _ =>
        keeps_arraysEqual frame engine invoke _ _ _ _
    · exact keeps_pure frame _

theorem keeps_hash (type : BuiltinType) (args : List Ref) : Keeps R (engine.hash type args) := by
  cases type with
  | none =>
    exact keeps_bind frame (Arguments.keeps_receiver frame .none args) fun _ => keeps_pure frame _
  | int =>
    exact keeps_bind frame (Arguments.keeps_receiver frame .int args) fun _ => keeps_pure frame _
  | float =>
    exact keeps_bind frame (Arguments.keeps_receiver frame .float args) fun _ => keeps_pure frame _
  | bool =>
    exact keeps_bind frame (Arguments.keeps_receiver frame .bool args) fun _ => keeps_pure frame _
  | string =>
    exact keeps_bind frame (Arguments.keeps_receiver frame .string args) fun _ =>
      keeps_pure frame _
  | array =>
    apply keeps_bind frame (Arguments.keeps_receiver frame .array args)
    intro buffer
    apply keeps_bind frame (Arguments.keeps_given frame args 0)
    intro array
    have marked := keeps_marking frame lawful_hashMarks array
      (keeps_hashes frame engine invoke buffer.live)
    apply keeps_bind frame marked
    intro hashes
    split
    · exact keeps_pure frame _
    · exact keeps_pure frame _

theorem keeps_dedupe (kept : List (Int64 × Ref)) (items : List Ref) :
    Keeps R (engine.dedupe kept items) := by
  induction items generalizing kept with
  | nil => exact keeps_pure frame _
  | cons item rest ih =>
    apply keeps_bind frame (keeps_hashOf frame engine invoke item)
    intro hash
    apply keeps_bind frame (keeps_equalsAny frame engine invoke item _)
    intro duplicate
    split
    · exact ih _
    · exact ih _

theorem keeps_runArray (method : ArrayMethod) (args : List Ref) :
    Keeps R (engine.runArray method args) := by
  apply keeps_bind frame (Arguments.keeps_receiver frame .array args)
  intro buffer
  have newArray := Machine.keeps_newArray frame engine.machine
  have given := Arguments.keeps_given frame args
  cases method with
  | length => exact Machine.keeps_newInt frame engine.machine _
  | isEmpty => exact keeps_pure frame _
  | push =>
    apply keeps_bind frame (given 0)
    intro array
    apply keeps_bind frame (given 1)
    intro item
    exact keeps_bind frame (Machine.keeps_push frame engine.machine array item) fun _ =>
      keeps_pure frame _
  | concat =>
    exact keeps_bind frame (Arguments.keeps_required frame .array args 1) fun _ => newArray _
  | join =>
    apply keeps_bind frame (Arguments.keeps_optional frame .string args 1)
    intro separator
    exact keeps_bind frame (keeps_texts frame engine invoke _) fun _ =>
      Machine.keeps_newString frame engine.machine _
  | contains =>
    apply keeps_bind frame (given 1)
    intro target
    exact keeps_bind frame (keeps_equalsAny frame engine invoke target _) fun _ =>
      keeps_pure frame _
  | dedupe => exact keeps_bind frame (keeps_dedupe frame engine invoke [] _) newArray
  | enumerate =>
    refine keeps_bind frame (keeps_mapM frame ?_ _) newArray
    intro entry
    exact keeps_bind frame (Machine.keeps_newInt frame engine.machine _) fun _ => newArray _

theorem keeps_runBuiltin (builtin : Builtin) (args : List Ref) :
    Keeps R (engine.runBuiltin builtin args) := by
  cases builtin with
  | common type method =>
    cases method with
    | toText => exact keeps_text frame engine invoke type args
    | equal =>
      exact keeps_bind frame (keeps_equal frame engine invoke type args) fun _ =>
        keeps_pure frame _
    | hash =>
      exact keeps_bind frame (keeps_hash frame engine invoke type args) fun _ =>
        Machine.keeps_newInt frame engine.machine _
  | string method => exact Machine.keeps_runString frame engine.machine method args
  | array method => exact keeps_runArray frame engine invoke method args

/-! ## Programs -/

theorem keeps_answer (request : Request) : Keeps R (engine.answer request) := by
  cases request with
  | none | bool => exact keeps_pure frame _
  | int value => exact Machine.keeps_newInt frame engine.machine value
  | float value => exact Machine.keeps_newFloat frame engine.machine value
  | string bytes => exact Machine.keeps_newString frame engine.machine bytes
  | array items => exact Machine.keeps_newArray frame engine.machine items
  | filledArray length capacity =>
    exact Machine.keeps_newFilledArray frame engine.machine length capacity
  | record type fields => exact keeps_alloc frame _ (by simp)
  | typeOf value => exact keeps_typeId frame value
  | view value => exact keeps_bind frame (keeps_payload frame value) fun _ => keeps_pure frame _
  | set array index item => exact keeps_setSlot frame array index item
  | push array item => exact Machine.keeps_push frame engine.machine array item
  | setField value index item => exact keeps_setField frame value index item
  | text value => exact keeps_attempt (keeps_textOf frame engine invoke value)
  | equal first second => exact keeps_attempt (keeps_areEqual frame engine invoke first second)
  | hash value => exact keeps_attempt (keeps_hashOf frame engine invoke value)
  | call slot args => exact keeps_attempt (keeps_send frame engine invoke slot args)
  | invoke type slot args => exact keeps_attempt (keeps_sendAs frame engine invoke type slot args)
  | printLine items => exact keeps_attempt (keeps_printLine frame engine invoke items)

/-- Whatever a program asks for and does with the answers, it keeps the relation. -/
theorem keeps_run {α : Type} (program : Program α) : Keeps R (engine.run program) := by
  induction program with
  | done result => exact keeps_pure frame result
  | fail error => exact keeps_fail frame error
  | ask request next ih =>
    exact keeps_bind frame (keeps_answer frame engine invoke request) fun answer => ih answer

theorem keeps_runMethod (method : Method) (args : List Ref) :
    Keeps R (engine.runMethod method args) := by
  unfold runMethod
  split
  · cases method with
    | builtin builtin => exact keeps_runBuiltin frame engine invoke builtin args
    | function _ _ body => exact keeps_run frame engine invoke (body args)
    | closure _ _ captures body => exact keeps_run frame engine invoke (body captures args)
  · exact keeps_fail frame _

end Engine

/-! ## Programs one after another -/

namespace Engine

variable (engine : Engine)

/-- The first of two programs is run before the second. -/
theorem run_bind {α β : Type} (program : Program α) (next : α → Program β) :
    engine.run (program.bind next) = engine.run program >>= fun result => engine.run (next result) := by
  induction program with
  | done result => rfl
  | fail error => rfl
  | ask request rest ih =>
    simp only [Program.bind, run, ih]
    rw [bind_assoc]

theorem run_ofExcept {α : Type} (outcome : Except MachineError α) :
    engine.run (.ofExcept outcome) = ofExcept outcome := by
  cases outcome <;> rfl

theorem run_request (request : Request) : engine.run (.request request) = engine.answer request :=
  bind_pure (engine.answer request)

/-- A program that makes a call and hands on what comes of it does nothing but the call. -/
theorem run_call (slot : Nat) (args : List Ref) :
    engine.run ((Program.request (.call slot args)).bind .ofExcept) = engine.send slot args := by
  rw [run_bind, run_request]
  simp only [run_ofExcept]
  exact attempt_bind_ofExcept (engine.send slot args)

end Engine

/-! ## Runs -/

namespace Machine

variable (machine : Machine)

/-- Calls nested to any depth keep the relation. -/
theorem keeps_invoke (frame : Frame R) (depth : Nat) :
    ∀ method args, Keeps R (machine.invoke depth method args) := by
  induction depth with
  | zero => exact fun _ _ => keeps_throw frame _
  | succ depth ih => exact Engine.keeps_runMethod frame ⟨machine, machine.invoke depth⟩ ih

theorem exists_depth (state : State) : ∃ depth, machine.depth state = depth + 1 := by
  have square := Nat.le_mul_self (state.heap.size + 2)
  refine ⟨machine.depth state - 1, ?_⟩
  unfold depth
  omega

/-- A builtin method is run by the machine that nests calls less deep by one. -/
theorem invoke_builtin_succ {machine : Machine} {depth : Nat} {builtin : Builtin} {args : List Ref}
    (count : builtin.arity.accepts args.length = true) :
    (machine.engine (depth + 1)).invoke (.builtin builtin) args =
      (machine.engine depth).runBuiltin builtin args := if_pos count

theorem act_apply {α : Type} (action : Engine → Exec α) (state : State) :
    machine.act action state = action (machine.engine (machine.depth state)) state := rfl

theorem returns_of_act {α : Type} {action : Engine → Exec α} {before after : State}
    (h : (machine.act action).Returns before after) :
    (action (machine.engine (machine.depth before))).Returns before after := by
  rw [returns_iff, act_apply] at h
  rwa [returns_iff]

theorem keeps_act {α : Type} {action : Engine → Exec α}
    (keeps : ∀ depth, Keeps R (action (machine.engine depth))) : Keeps R (machine.act action) :=
  fun before after h => keeps (machine.depth before) before after (machine.returns_of_act h)

/-- One operation on a machine from outside, from the state before it to the state in which it
returns. -/
inductive Step : State → State → Prop where
  /-- Whatever a program can ask for. -/
  | request (request : Request) {before after : State} :
      (machine.act (·.answer request)).Returns before after → Step before after
  /-- A method run directly. -/
  | method (method : Method) (args : List Ref) {before after : State} :
      (machine.runMethod method args).Returns before after → Step before after
  /-- An element of a container. -/
  | element (value : Ref) (index : Int64) {before after : State} :
      (machine.element value index).Returns before after → Step before after
  /-- A part of a container. -/
  | part (value : Ref) (start stop : Int64) {before after : State} :
      (machine.part value start stop).Returns before after → Step before after
  /-- The values that a text spells. -/
  | read (text : List Char) {before after : State} :
      (machine.readValues text).Returns before after → Step before after

/-- Any number of operations one after another, each of which returned. -/
def Runs : State → State → Prop := Relation.ReflTransGen machine.Step

theorem Step.related {machine : Machine} (frame : Frame R) {before after : State}
    (step : machine.Step before after) : R before after := by
  cases step with
  | request request h =>
    refine machine.keeps_act ?_ before after h
    intro depth
    exact Engine.keeps_answer frame _ (machine.keeps_invoke frame depth) request
  | method method args h =>
    refine machine.keeps_act ?_ before after h
    intro depth
    exact machine.keeps_invoke frame depth method args
  | element value index h => exact keeps_element frame machine value index before after h
  | part value start stop h => exact keeps_part frame machine value start stop before after h
  | read text h => exact keeps_readValues frame machine text before after h

theorem Runs.related {machine : Machine} (frame : Frame R) {before after : State}
    (runs : machine.Runs before after) : R before after := by
  induction runs with
  | refl => exact frame.refl before
  | tail _ step ih => exact frame.trans ih (step.related frame)

end Machine

end BoxedValues
