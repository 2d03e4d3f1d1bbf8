import BoxedValues.Proofs.Machine.Assembling
import BoxedValues.Proofs.Machine.Faulting

/-!
# How calls fail

A call is judged before the body of the method is run: is there a receiver, is its type registered, has
the type the method, is the number of arguments right, and are the receiver and those arguments that
the method looks into of the right kinds? The first objection is the error of the call.

* `Builtin.parameters`: the arguments that a builtin method looks into, in order;
* `Machine.resolve`: the method that a call runs, or the first objection to the call;
* `Engine.judged_runBuiltin`: a builtin method that is given the right number of arguments makes the
  objections that its parameters call for, and ends in no fault but that of an element;
* `Machine.calls_classified`: **every call is an error for the first objection to it, or it is the
  body of the method**, and no call reads an argument that was not given.
-/

set_option autoImplicit false

namespace BoxedValues

open Exec

/-! ## Objections -/

/-- An argument that a builtin method looks into. -/
structure Parameter where
  /-- Its place behind the receiver. -/
  index : Nat
  type : BuiltinType
  /-- Whether it may be left out, or be `None`. -/
  optional : Bool

namespace Parameter

/-- The contents that the parameter takes. -/
def Takes (parameter : Parameter) (payload : Payload) : Prop :=
  payload.kind = .builtin parameter.type ∨ parameter.optional = true ∧ payload.kind = .builtin .none

instance (parameter : Parameter) (payload : Payload) : Decidable (parameter.Takes payload) :=
  inferInstanceAs (Decidable (_ ∨ _))

/-- The objection to an argument of the wrong kind. There is none to an argument that is left out. -/
def objection? (parameter : Parameter) (heap : Heap) (args : List Ref) : Option MachineError :=
  match args[parameter.index]? with
  | none => none
  | some value =>
    if parameter.Takes (heap.get value).payload then none
    else some (.wrongArgument parameter.index parameter.type.name (heap.get value).typeId)

end Parameter

/-- The arguments that a builtin method looks into. -/
def Builtin.parameters : Builtin → List Parameter
  | .string .padLeft => [⟨1, .int, false⟩, ⟨2, .string, false⟩]
  | .string .trimStart => [⟨1, .string, true⟩]
  | .string .trimEnd => [⟨1, .string, true⟩]
  | .string .split => [⟨1, .string, false⟩]
  | .string .parseInt => [⟨1, .int, true⟩]
  | .array .concat => [⟨1, .array, false⟩]
  | .array .join => [⟨1, .string, true⟩]
  | _ => []

/-- The first objection of a builtin method to the kinds of its arguments. -/
def Builtin.objection? (builtin : Builtin) (heap : Heap) (args : List Ref) : Option MachineError :=
  match args with
  | [] => none
  | receiver :: _ =>
    if (heap.get receiver).payload.kind = .builtin builtin.type then
      builtin.parameters.findSome? (·.objection? heap args)
    else some (.wrongReceiver builtin.type.name (heap.get receiver).typeId)

/-- The first objection to running a method on arguments. A registered method makes no objection to
their kinds. -/
def Method.objection? (method : Method) (heap : Heap) (args : List Ref) : Option MachineError :=
  if method.arity.accepts args.length then
    match method with
    | .builtin called => called.objection? heap args
    | _ => none
  else some (.argumentCount method.name method.arity args.length)

/-- The method that a call runs, or the first objection to the call. -/
def Machine.resolve (machine : Machine) (heap : Heap) (slot : Nat) (args : List Ref) :
    Except MachineError Method :=
  match args with
  | [] => .error (.argumentCount s!"<slot {slot}>" (.atLeast 1) 0)
  | receiver :: _ =>
    match machine.table.entry (heap.get receiver).typeId with
    | .error error => .error error
    | .ok entry =>
      match entry.method? slot with
      | none => .error (.noMethod entry.name slot)
      | some method =>
        match method.objection? heap args with
        | some error => .error error
        | none => .ok method

/-! ## Judging arguments -/

/-- The accessor takes what payloads of its type hold, and nothing else. -/
def Accessor.Fits {α : Type} (held : Accessor α) : Prop :=
  ∀ payload, (held.get? payload).isSome = true ↔ payload.kind = .builtin held.type

namespace Accessor

variable {α : Type} {held : Accessor α} {payload : Payload}

theorem Fits.kind {content : α} (fits : held.Fits) (found : held.get? payload = some content) :
    payload.kind = .builtin held.type := (fits payload).1 (by rw [found]; rfl)

theorem Fits.kind_ne (fits : held.Fits) (found : held.get? payload = .none) :
    payload.kind ≠ .builtin held.type := by
  intro kind
  have some := (fits payload).2 kind
  rw [found] at some
  cases some

theorem fits_none : none.Fits := by
  intro payload
  cases payload <;> simp [none, Payload.isNone, Payload.kind]

theorem fits_bool : bool.Fits := by
  intro payload
  cases payload <;> simp [bool, Payload.bool?, Payload.kind]

theorem fits_int : int.Fits := by
  intro payload
  cases payload <;> simp [int, Payload.int?, Payload.kind]

theorem fits_float : float.Fits := by
  intro payload
  cases payload <;> simp [float, Payload.float?, Payload.kind]

theorem fits_string : string.Fits := by
  intro payload
  cases payload <;> simp [string, Payload.string?, Payload.kind]

theorem fits_array : array.Fits := by
  intro payload
  cases payload <;> simp [array, Payload.array?, Payload.kind]

end Accessor

namespace Exec

variable {α β : Type} {objection? : Option MachineError} {P : Fault → Prop} {action : Exec α}
  {next : α → Exec β} {held : Accessor α} {receiver value : Ref} {args : List Ref} {index : Nat}
  {state : State}

/-- The action ends with the error if there is an objection, and otherwise in no fault but those with
the property. -/
def Judged (objection? : Option MachineError) (P : Fault → Prop) (action : Exec α) (state : State) :
    Prop :=
  match objection? with
  | some error => action state = .error (.error error) state
  | none => action.FaultsAt P state

theorem judged_of_faults (h : action.Faults P) : action.Judged none P state := h state

/-- Only what the action does matters. -/
theorem Judged.of_eq {other : Exec α} (h : other.Judged objection? P state)
    (same : action state = other state) : action.Judged objection? P state := by
  unfold Judged FaultsAt at h ⊢
  rwa [same]

/-- What follows makes no objections of its own. -/
theorem Judged.bind (h : action.Judged objection? P state) (rest : ∀ result, (next result).Faults P) :
    (action >>= next).Judged objection? P state := by
  cases objection? with
  | some error => exact bind_error h
  | none => exact faultsAt_bind h fun result middle _ => rest result middle

/-- A look at the receiver comes first. -/
theorem judged_receiver (fits : held.Fits)
    (rest : ∀ content, held.get? (state.heap.get receiver).payload = some content →
      (next content).Judged objection? P state) :
    (Arguments.receiver held (receiver :: args) >>= next).Judged
      (if (state.heap.get receiver).payload.kind = .builtin held.type then objection?
        else some (.wrongReceiver held.type.name (state.heap.get receiver).typeId)) P state := by
  cases found : held.get? (state.heap.get receiver).payload with
  | some content =>
    rw [if_pos (fits.kind found)]
    exact (rest content found).of_eq (bind_ok (Arguments.receiver_ok found))
  | none =>
    rw [if_neg (fits.kind_ne found)]
    apply bind_error
    unfold Arguments.receiver
    rw [bind_ok (Arguments.given_zero state), bind_ok (box_ok receiver state), found]
    rfl

theorem given_ok (given : args[index]? = some value) :
    Arguments.given args index state = .ok value state := by
  unfold Arguments.given
  rw [given]
  rfl

/-- A look at a required argument, which was given. -/
theorem judged_required (fits : held.Fits) (given : args[index]? = some value)
    (rest : ∀ content, (next content).Judged objection? P state) :
    (Arguments.required held args index >>= next).Judged
      ((Parameter.objection? ⟨index, held.type, false⟩ state.heap args).or objection?) P state := by
  unfold Parameter.objection?
  rw [given]
  cases found : held.get? (state.heap.get value).payload with
  | some content =>
    simp only [Parameter.Takes, fits.kind found, true_or, if_true, Option.none_or]
    exact (rest content).of_eq (bind_ok (Arguments.required_ok given found))
  | none =>
    simp only [Parameter.Takes, fits.kind_ne found, Bool.false_eq_true, false_and, or_self, if_false,
      Option.some_or]
    apply bind_error
    unfold Arguments.required
    rw [bind_ok (given_ok given), bind_ok (box_ok value state), found]
    rfl

/-- A look at an argument that may be left out. -/
theorem judged_optional {next : Option α → Exec β} (fits : held.Fits)
    (rest : ∀ content, (next content).Judged objection? P state) :
    (Arguments.optional held args index >>= next).Judged
      ((Parameter.objection? ⟨index, held.type, true⟩ state.heap args).or objection?) P state := by
  have absent (looked : Arguments.optional held args index state = .ok none state) :
      (Arguments.optional held args index >>= next).Judged objection? P state :=
    (rest none).of_eq (bind_ok looked)
  cases given : args[index]? with
  | none =>
    have clear : Parameter.objection? ⟨index, held.type, true⟩ state.heap args = none := by
      simp only [Parameter.objection?, given]
    rw [clear, Option.none_or]
    refine absent ?_
    unfold Arguments.optional
    rw [given]
    rfl
  | some value =>
    by_cases isNone : (state.heap.get value).payload.isNone
    · have kind : (state.heap.get value).payload.kind = .builtin .none :=
        Accessor.fits_none.kind (if_pos isNone)
      have clear : Parameter.objection? ⟨index, held.type, true⟩ state.heap args = none := by
        simp only [Parameter.objection?, given, Parameter.Takes, kind, true_and, or_true, if_true]
      rw [clear, Option.none_or]
      refine absent ?_
      unfold Arguments.optional
      rw [given]
      show (payload value >>= _) state = _
      rw [bind_ok (payload_ok value state), if_pos isNone]
      rfl
    · have other : (state.heap.get value).payload.kind ≠ .builtin .none :=
        Accessor.fits_none.kind_ne (if_neg isNone)
      have strict : Parameter.objection? ⟨index, held.type, true⟩ state.heap args =
          Parameter.objection? ⟨index, held.type, false⟩ state.heap args := by
        simp only [Parameter.objection?, given, Parameter.Takes, other, and_false, or_false]
      have opened : Arguments.optional held args index state =
          (Arguments.required held args index >>= fun content => pure (some content)) state := by
        unfold Arguments.optional
        rw [given]
        show (payload value >>= _) state = _
        rw [bind_ok (payload_ok value state), if_neg isNone]
      have looked : (Arguments.optional held args index >>= next) state =
          (Arguments.required held args index >>= fun content => next (some content)) state := by
        rw [bind_congr_left opened, bind_assoc]
        simp only [pure_bind]
      rw [strict]
      exact (judged_required fits given fun content => rest (some content)).of_eq looked

end Exec

/-! ## Builtin methods -/

namespace Builtin

variable {builtin : Builtin} {heap : Heap} {args : List Ref}

/-- Every builtin method has a receiver. -/
theorem exists_receiver (accepted : builtin.arity.accepts args.length = true) :
    ∃ receiver others, args = receiver :: others := by
  cases args with
  | cons receiver others => exact ⟨receiver, others, rfl⟩
  | nil =>
    exfalso
    cases builtin with
    | common type method => cases method <;> cases accepted
    | string method => cases method <;> cases accepted
    | array method => cases method <;> cases accepted

/-- The objection of a method that looks into one argument behind the receiver. -/
theorem findSome?_one (parameter : Parameter) :
    [parameter].findSome? (·.objection? heap args) =
      (parameter.objection? heap args).or none := by
  simp only [List.findSome?_cons, List.findSome?_nil]
  cases parameter.objection? heap args <;> rfl

theorem findSome?_two (first second : Parameter) :
    [first, second].findSome? (·.objection? heap args) =
      (first.objection? heap args).or ((second.objection? heap args).or none) := by
  simp only [List.findSome?_cons, List.findSome?_nil]
  cases first.objection? heap args <;> cases second.objection? heap args <;> rfl

end Builtin

namespace Engine

variable (engine : Engine) {P : Fault → Prop} {receiver other : Ref} {args : List Ref} {state : State}

/-- The fault is one of an element of the receiver, which is an array. -/
def BodyFault (type : BuiltinType) (heap : Heap) (args : List Ref) (fault : Fault) : Prop :=
  type = .array ∧ ∃ array ∈ args.head?, engine.ElementFault (heap.items array) fault

/-- What an array's method does after the look at the receiver goes through its elements. -/
theorem bodyFault_of_elementFault {buffer : Buffer} {fault : Fault}
    (held : Accessor.array.get? (state.heap.get receiver).payload = some buffer)
    (h : engine.ElementFault buffer.live fault) :
    engine.BodyFault .array state.heap (receiver :: args) fault := by
  have same : (state.heap.get receiver).payload = .array buffer := by
    cases content : (state.heap.get receiver).payload with
    | array other =>
      rw [content] at held
      cases held
      rfl
    | _ =>
      rw [content] at held
      cases held
  exact ⟨rfl, receiver, rfl, by rwa [Heap.items_of_array same]⟩

/-! ### Texts, equality and hashes -/

theorem judged_text (type : BuiltinType) :
    (engine.text type [receiver]).Judged ((Builtin.common type .toText).objection? state.heap [receiver])
      (engine.BodyFault type state.heap [receiver]) state := by
  cases type with
  | none => exact judged_receiver Accessor.fits_none fun _ _ => judged_of_faults (faults_pure _)
  | bool => exact judged_receiver Accessor.fits_bool fun _ _ => judged_of_faults (faults_pure _)
  | int => exact judged_receiver Accessor.fits_int fun _ _ => judged_of_faults (faults_alloc _)
  | float => exact judged_receiver Accessor.fits_float fun _ _ => judged_of_faults (faults_alloc _)
  | string => exact judged_receiver Accessor.fits_string fun _ _ => judged_of_faults (faults_pure _)
  | array =>
    refine judged_receiver Accessor.fits_array fun buffer held => ?_
    exact faultsAt_bind_ok (Arguments.given_zero state) ((engine.faults_arrayText _ _ state).mono
      fun _ => engine.bodyFault_of_elementFault held)

theorem judged_equal (type : BuiltinType) :
    (engine.equal type [receiver, other]).Judged
      ((Builtin.common type .equal).objection? state.heap [receiver, other])
      (engine.BodyFault type state.heap [receiver, other]) state := by
  have compared (verdict : Payload → Bool) {P : Fault → Prop} : Judged none P
      (do return verdict (← payload (← Arguments.given [receiver, other] 1))) state :=
    faultsAt_of_ok rfl
  cases type with
  | none => exact judged_receiver Accessor.fits_none fun _ _ => compared Payload.isNone
  | bool =>
    exact judged_receiver Accessor.fits_bool fun value _ => compared (·.bool? == some value)
  | int => exact judged_receiver Accessor.fits_int fun value _ => compared (·.int? == some value)
  | float =>
    exact judged_receiver Accessor.fits_float fun value _ => compared (·.float?.any (value.ieeeEq ·))
  | string =>
    exact judged_receiver Accessor.fits_string fun value _ => compared (·.string? == some value)
  | array =>
    refine judged_receiver Accessor.fits_array fun buffer held => ?_
    refine faultsAt_bind_ok (Arguments.given_one state) (faultsAt_bind_ok (payload_ok other state) ?_)
    split
    · refine faultsAt_bind_ok (Arguments.given_zero state) ?_
      exact (engine.faults_arraysEqual _ _ _ _ state).mono fun _ =>
        engine.bodyFault_of_elementFault held
    · exact faults_pure _ state

theorem judged_hash (type : BuiltinType) :
    (engine.hash type [receiver]).Judged ((Builtin.common type .hash).objection? state.heap [receiver])
      (engine.BodyFault type state.heap [receiver]) state := by
  cases type with
  | none => exact judged_receiver Accessor.fits_none fun _ _ => judged_of_faults (faults_pure _)
  | bool => exact judged_receiver Accessor.fits_bool fun _ _ => judged_of_faults (faults_pure _)
  | int => exact judged_receiver Accessor.fits_int fun _ _ => judged_of_faults (faults_pure _)
  | float => exact judged_receiver Accessor.fits_float fun _ _ => judged_of_faults (faults_pure _)
  | string => exact judged_receiver Accessor.fits_string fun _ _ => judged_of_faults (faults_pure _)
  | array =>
    refine judged_receiver Accessor.fits_array fun buffer held => ?_
    exact faultsAt_bind_ok (Arguments.given_zero state) ((engine.faults_hashElements _ _ state).mono
      fun _ => engine.bodyFault_of_elementFault held)

/-! ### The libraries -/

theorem judged_runString (machine : Machine) (method : StringMethod)
    (accepted : method.arity.accepts (receiver :: args).length = true) :
    (machine.runString method (receiver :: args)).Judged
      ((Builtin.string method).objection? state.heap (receiver :: args)) P state := by
  refine judged_receiver Accessor.fits_string fun bytes _ => ?_
  have alloc (box : Box) : Judged none P (Exec.alloc box) state := judged_of_faults (faults_alloc box)
  cases method with
  | padLeft =>
    match args with
    | [width, padding] =>
      rw [Builtin.parameters, Builtin.findSome?_two]
      refine judged_required Accessor.fits_int rfl fun width => ?_
      refine judged_required Accessor.fits_string rfl fun padding => ?_
      split
      · exact alloc _
      · exact faultsAt_of_ok (Arguments.given_zero state)
  | trimStart | trimEnd =>
    rw [Builtin.parameters, Builtin.findSome?_one]
    exact judged_optional Accessor.fits_string fun _ => alloc _
  | split =>
    match args with
    | [separator] =>
      rw [Builtin.parameters, Builtin.findSome?_one]
      exact judged_required Accessor.fits_string rfl fun _ =>
        judged_of_faults (machine.faults_newTexts _)
  | parseInt =>
    rw [Builtin.parameters, Builtin.findSome?_one]
    refine judged_optional Accessor.fits_int fun radix => ?_
    split
    · exact alloc _
    · exact judged_of_faults (faults_pure _)
  | parseFloat =>
    dsimp only
    split
    · exact alloc _
    · exact judged_of_faults (faults_pure _)
  | lines | chars => exact judged_of_faults (machine.faults_newTexts _)
  | length | toLower | toUpper | trim => exact alloc _

theorem judged_runArray (method : ArrayMethod)
    (accepted : method.arity.accepts (receiver :: args).length = true) :
    (engine.runArray method (receiver :: args)).Judged
      ((Builtin.array method).objection? state.heap (receiver :: args))
      (engine.BodyFault .array state.heap (receiver :: args)) state := by
  refine judged_receiver Accessor.fits_array fun buffer held => ?_
  have body (fault : Fault) (h : engine.ElementFault buffer.live fault) :
      engine.BodyFault .array state.heap (receiver :: args) fault :=
    engine.bodyFault_of_elementFault held h
  cases method with
  | length => exact judged_of_faults (faults_alloc _)
  | isEmpty => exact judged_of_faults (faults_pure _)
  | push =>
    match args with
    | [item] =>
      refine faultsAt_bind_ok (Arguments.given_zero state) ?_
      refine faultsAt_bind_ok (Arguments.given_one state) ?_
      exact faults_bind (engine.machine.faults_push _ _) (fun _ => faults_pure _) state
  | concat =>
    match args with
    | [other] =>
      rw [Builtin.parameters, Builtin.findSome?_one]
      exact judged_required Accessor.fits_array rfl fun _ => judged_of_faults (faults_alloc _)
  | join =>
    rw [Builtin.parameters, Builtin.findSome?_one]
    refine judged_optional Accessor.fits_string fun separator => judged_of_faults ?_
    exact faults_bind ((engine.faults_texts buffer.live).mono body) fun _ => faults_alloc _
  | contains =>
    match args with
    | [target] =>
      refine faultsAt_bind_ok (Arguments.given_one state) ?_
      have found := engine.faults_equalsAny target buffer.live (List.Subset.refl _)
      exact faults_bind (found.mono body) (fun _ => faults_pure _) state
  | dedupe =>
    have kept := engine.faults_dedupe [] buffer.live (List.nil_subset _) (List.Subset.refl _)
    exact judged_of_faults (faults_bind (kept.mono body) fun _ => faults_alloc _)
  | enumerate =>
    refine judged_of_faults (faults_bind (faults_mapM _ fun entry _ => ?_) fun _ => faults_alloc _)
    exact faults_bind (faults_alloc _) fun _ => faults_alloc _

/-- **A builtin method makes the objections that its type and its parameters call for.** Without one it
ends in no fault but that of an element of an array. -/
theorem judged_runBuiltin (builtin : Builtin) (accepted : builtin.arity.accepts args.length = true)
    (state : State) : (engine.runBuiltin builtin args).Judged (builtin.objection? state.heap args)
      (engine.BodyFault builtin.type state.heap args) state := by
  obtain ⟨receiver, others, rfl⟩ := Builtin.exists_receiver accepted
  cases builtin with
  | common type method =>
    cases method with
    | toText =>
      match others with
      | [] => exact engine.judged_text type
    | equal =>
      match others with
      | [other] => exact (engine.judged_equal type).bind fun _ => faults_pure _
    | hash =>
      match others with
      | [] => exact (engine.judged_hash type).bind fun _ => faults_alloc _
  | string method => exact judged_runString engine.machine method accepted
  | array method => exact engine.judged_runArray method accepted

/-! ## Whole calls -/

section

variable {engine} (errors : AllowsErrors P) (reliable : engine.Reliable P)

include errors reliable

/-- A builtin method that is given the right number of arguments has no faults of its own. -/
theorem faults_runBuiltin (builtin : Builtin) (accepted : builtin.arity.accepts args.length = true) :
    (engine.runBuiltin builtin args).Faults P := by
  intro state fault after ran
  have judged := engine.judged_runBuiltin builtin accepted state
  unfold Judged at judged
  split at judged
  · rw [ran] at judged
    cases judged
    exact errors _
  · obtain ⟨_, array, _, elementFault⟩ := judged fault after ran
    exact elementFault.property errors reliable

/-- Nor has a method that is run after a look at the number of its arguments, unless it is a registered
method whose body has some. -/
theorem faults_runMethod (method : Method) (args : List Ref)
    (body : (∀ builtin, method ≠ .builtin builtin) → (engine.runBody method args).Faults P) :
    (engine.runMethod method args).Faults P := by
  unfold runMethod
  split
  · rename_i accepted
    cases method with
    | builtin builtin => exact faults_runBuiltin errors reliable builtin accepted
    | _ => exact body nofun
  · exact faults_fail errors _

/-- Stores aside, no request of a program has faults of its own. -/
theorem faults_run {α : Type}
    (stores : ∀ index capacity, P (.storeBeyondCapacity index capacity)) (program : Program α) :
    (engine.run program).Faults P := by
  have answers (request : Request) : (engine.answer request).Faults P := by
    cases request with
    | none | bool => exact faults_pure _
    | int | float | string | array | filledArray | record => exact faults_alloc _
    | typeOf value => exact faults_typeId value
    | view value => exact faults_bind (faults_payload value) fun _ => faults_pure _
    | set array index item =>
      refine faults_bind (faults_payload array) fun payload => ?_
      split
      · split
        · exact fun _ => faultsAt_of_ok rfl
        · exact faults_throw (stores _ _)
      · exact faults_pure ()
    | push array item => exact engine.machine.faults_push array item
    | setField value index item =>
      refine faults_bind (faults_payload value) fun payload => ?_
      split
      · split
        · exact fun _ => faultsAt_of_ok rfl
        · exact faults_pure _
      · exact faults_pure _
    | text value => exact faults_attempt (faults_textOf errors reliable value)
    | equal first second => exact faults_attempt (faults_areEqual errors reliable first second)
    | hash value => exact faults_attempt (faults_hashOf errors reliable value)
    | call slot args => exact faults_attempt (faults_send errors reliable slot args)
    | invoke type slot args => exact faults_attempt (faults_sendAs errors reliable type slot args)
    | printLine items => exact faults_attempt (faults_printLine errors reliable items)
  induction program with
  | done result => exact faults_pure result
  | fail error => exact faults_fail errors error
  | ask request next ih => exact faults_bind (answers request) ih

end

end Engine

/-- An error that callers can handle, or calls that are nested too deeply. -/
def Fault.Ordinary (fault : Fault) : Prop := (∃ error, fault = .error error) ∨ fault = .depthExceeded

/-- One of these, or a store into a slot that an array does not have, which only the body of a
registered method asks for. -/
def Fault.OrdinaryOrStore (fault : Fault) : Prop :=
  fault.Ordinary ∨ ∃ index capacity, fault = .storeBeyondCapacity index capacity

namespace Machine

variable (machine : Machine)

/-- The bodies of registered methods return, unless calls are nested too deeply. -/
def MethodsReturn : Prop :=
  ∀ id entry slot method, machine.table.entry id = .ok entry → entry.method? slot = some method →
    (∀ builtin, method ≠ .builtin builtin) →
      ∀ depth args, ((machine.engine depth).runBody method args).Faults Fault.Ordinary

/-- However deeply it is nested, a call ends with a result or an error, or for want of depth, or at a
store of a registered method. -/
theorem faults_invoke (depth : Nat) (method : Method) (args : List Ref) :
    (machine.invoke depth method args).Faults Fault.OrdinaryOrStore := by
  have errors : AllowsErrors Fault.OrdinaryOrStore := fun error => .inl (.inl ⟨error, rfl⟩)
  induction depth generalizing method args with
  | zero => exact faults_throw (.inl (.inr rfl))
  | succ depth ih =>
    have reliable : (machine.engine depth).Reliable Fault.OrdinaryOrStore :=
      fun _ _ _ method args _ _ => ih method args
    refine Engine.faults_runMethod errors reliable method args fun registered => ?_
    have run (program : Program Ref) := Engine.faults_run errors reliable
      (fun index capacity => .inr ⟨index, capacity, rfl⟩) program
    cases method with
    | builtin builtin => exact absurd rfl (registered builtin)
    | function name arity body => exact run _
    | closure name arity captures body => exact run _

/-- If registered methods return, all methods of the type table do. -/
theorem reliable_of_methodsReturn (returns : machine.MethodsReturn) (depth : Nat) :
    (machine.engine depth).Reliable Fault.Ordinary := by
  have errors : AllowsErrors Fault.Ordinary := fun error => .inl ⟨error, rfl⟩
  induction depth with
  | zero => exact fun _ _ _ _ _ _ _ => faults_throw (.inr rfl)
  | succ depth ih =>
    intro id entry slot method args registered found
    exact Engine.faults_runMethod errors ih method args fun own =>
      returns id entry slot method registered found own depth args

/-- A method that is run is judged first. -/
theorem invoke_classified (depth : Nat) (method : Method) (args : List Ref) (state : State) :
    (machine.engine (depth + 1)).invoke method args state =
      match method.objection? state.heap args with
      | some error => .error (.error error) state
      | none => (machine.engine depth).runBody method args state := by
  show (machine.engine depth).runMethod method args state = _
  unfold Engine.runMethod Method.objection?
  split
  · rename_i accepted
    cases method with
    | builtin builtin =>
      have judged := (machine.engine depth).judged_runBuiltin builtin accepted state
      unfold Judged at judged
      dsimp only
      cases objection : builtin.objection? state.heap args with
      | some error =>
        rw [objection] at judged
        exact judged
      | none => rfl
    | _ => rfl
  · rfl

/-- So is a call through the receiver's type. -/
theorem send_classified (depth : Nat) (slot : Nat) (args : List Ref) (state : State) :
    (machine.engine (depth + 1)).send slot args state =
      match machine.resolve state.heap slot args with
      | .error error => .error (.error error) state
      | .ok method => (machine.engine depth).runBody method args state := by
  cases args with
  | nil => rfl
  | cons receiver others =>
    unfold Engine.send resolve
    dsimp only
    cases found : machine.table.entry (state.heap.get receiver).typeId with
    | error error => exact bind_error (entryOf_error found)
    | ok entry =>
      have opened : (machine.engine (depth + 1)).entryOf receiver state = .ok entry state :=
        entryOf_ok found
      rw [bind_ok opened]
      dsimp only
      cases entry.method? slot with
      | none => rfl
      | some method =>
        dsimp only
        rw [invoke_classified]
        cases method.objection? state.heap (receiver :: others) <;> rfl

/-- What becomes of calls that nest others no deeper than `depth`. -/
structure Classifies (depth : Nat) : Prop where
  /-- A call through the receiver's type. -/
  send : ∀ slot args state, (machine.engine (depth + 1)).send slot args state =
    match machine.resolve state.heap slot args with
    | .error error => .error (.error error) state
    | .ok method => (machine.engine depth).runBody method args state
  /-- A method that is run directly. -/
  method : ∀ method args state, (machine.engine (depth + 1)).invoke method args state =
    match method.objection? state.heap args with
    | some error => .error (.error error) state
    | none => (machine.engine depth).runBody method args state
  /-- The body of a builtin method of a scalar or a `String` always has a result. -/
  scalar : ∀ builtin args state, (Method.builtin builtin).objection? state.heap args = none →
    builtin.type ≠ .array →
      ∃ result after, (machine.engine depth).runBody (.builtin builtin) args state = .ok result after
  /-- The body of a method of `Array` only fails at an element. -/
  array : ∀ builtin array others state, builtin.type = .array →
    (Method.builtin builtin).objection? state.heap (array :: others) = none →
      ((machine.engine depth).runBody (.builtin builtin) (array :: others)).FaultsAt
        ((machine.engine depth).ElementFault (state.heap.items array)) state
  /-- No argument is read that was not given, and no size is reckoned wrongly. -/
  faults : (∀ slot args, ((machine.engine (depth + 1)).send slot args).Faults Fault.OrdinaryOrStore) ∧
    ∀ method args, ((machine.engine (depth + 1)).invoke method args).Faults Fault.OrdinaryOrStore
  /-- If registered methods return, calls do, unless they are nested too deeply. -/
  returns : machine.MethodsReturn →
    (∀ slot args, ((machine.engine (depth + 1)).send slot args).Faults Fault.Ordinary) ∧
      ∀ builtin args,
        ((machine.engine (depth + 1)).invoke (.builtin builtin) args).Faults Fault.Ordinary

theorem judged_of_objection?_eq_none {builtin : Builtin} {args : List Ref} {state : State} (depth : Nat)
    (clear : (Method.builtin builtin).objection? state.heap args = none) :
    ((machine.engine depth).runBody (.builtin builtin) args).FaultsAt
      ((machine.engine depth).BodyFault builtin.type state.heap args) state := by
  unfold Method.objection? at clear
  split at clear
  · rename_i accepted
    have judged := (machine.engine depth).judged_runBuiltin builtin accepted state
    unfold Judged at judged
    dsimp only at clear
    rwa [clear] at judged
  · cases clear

/-- **Every call is an error for the first objection to it, or it is the body of the method.** Bodies
of builtin methods have no faults but those of elements, on any machine and at any depth, and calls
from outside are such calls. -/
theorem calls_classified (machine : Machine) :
    (∀ depth, machine.Classifies depth) ∧
    ∀ state, ∃ depth,
      (∀ slot args, machine.send slot args state = (machine.engine (depth + 1)).send slot args state) ∧
      ∀ method args,
        machine.runMethod method args state = (machine.engine (depth + 1)).invoke method args state := by
  constructor
  · intro depth
    refine ⟨machine.send_classified depth, machine.invoke_classified depth, ?scalar, ?array, ?faults,
      ?returns⟩
    case scalar =>
      intro builtin args state clear scalar
      have body := machine.judged_of_objection?_eq_none depth clear
      exact (body.mono fun fault h => scalar h.1).ok
    case array =>
      intro builtin array others state _ clear
      have body := machine.judged_of_objection?_eq_none depth clear
      refine body.mono fun fault h => ?_
      obtain ⟨_, _, ⟨⟩, elementFault⟩ := h
      exact elementFault
    case faults =>
      have invoked := machine.faults_invoke (depth + 1)
      refine ⟨fun slot args => ?_, invoked⟩
      exact Engine.faults_send (fun error => .inl (.inl ⟨error, rfl⟩))
        (fun _ _ _ method args _ _ => invoked method args) slot args
    case returns =>
      intro returns
      have errors : AllowsErrors Fault.Ordinary := fun error => .inl ⟨error, rfl⟩
      refine ⟨fun slot args => ?_, fun builtin args => ?_⟩
      · exact Engine.faults_send errors (machine.reliable_of_methodsReturn returns (depth + 1)) slot args
      · exact Engine.faults_runMethod errors (machine.reliable_of_methodsReturn returns depth) _ args
          fun registered => absurd rfl (registered builtin)
  · intro state
    obtain ⟨depth, same⟩ := machine.exists_depth state
    refine ⟨depth, fun slot args => ?_, fun method args => ?_⟩
    · rw [← same]
      rfl
    · rw [← same]
      rfl

/-- A type whose values all have one text. -/
def letter : Entry :=
  ⟨"Letter", [.function "toString" (.exactly 1) fun _ => .ask (.string [108]) .done]⟩

/-- The machine with the builtin types and this one. -/
def lettered : Machine := { bare with table := ⟨bare.table.entries.push (some letter)⟩ }

theorem methodsReturn_lettered : lettered.MethodsReturn := by
  have assembled : Setup.assemble 7 .standard [(⟨6⟩, letter)] .empty .unlimited =
      .ok (lettered, bareState) := rfl
  intro id entry slot method registered found own depth args
  rcases Setup.assemble_cases 7 .standard [(⟨6⟩, letter)] .empty .unlimited with
    ⟨error, _, refused⟩ | ⟨_, machine, state, ended, fulfils⟩
  · rw [assembled] at refused
    cases refused
  · rw [assembled] at ended
    cases ended
    rcases (fulfils.entry id entry).1 registered with mem | ⟨type, _, rfl⟩
    · cases List.mem_singleton.1 mem
      have only : method ∈ letter.methods := List.mem_of_getElem? found
      cases List.mem_singleton.1 only
      exact faults_bind (faults_alloc _) fun _ => faults_pure _
    · obtain ⟨builtin, _, _, rfl⟩ := BuiltinType.method?_entry_iff.1 found
      exact absurd rfl (own builtin)

/-- A call on that machine, and one with too many arguments. -/
theorem calls_classified_lettered : lettered.MethodsReturn ∧
    ((lettered.engine 3).send 0 [lettered.noneValue]).Faults Fault.Ordinary ∧
    lettered.resolve bareState.heap 0 [lettered.noneValue, lettered.noneValue] =
      .error (.argumentCount "toString" (.exactly 1) 2) := by
  have returns := methodsReturn_lettered
  exact ⟨returns, (((calls_classified lettered).1 2).returns returns).1 0 _, rfl⟩

end Machine

end BoxedValues
