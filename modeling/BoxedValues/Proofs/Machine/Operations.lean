import BoxedValues.Proofs.Machine.Unison

/-!
# Operations one after another

What can be done with a machine from outside, and how it ends: with a result or with a fault. Either
way there is a state from which the next operation goes on.

* `Machine.steady_perform`: run from coupled states, an operation ends alike;
* `Machine.kept_after`: what every elementary change of a heap keeps, every sequence of operations
  keeps, also where operations fail.
-/

set_option autoImplicit false

namespace BoxedValues

/-- How an operation ended. -/
structure Outcome where
  Answer : Type
  result : Except Fault Answer

/-- It ended with a result. -/
def Outcome.ok {Answer : Type} (result : Answer) : Outcome := ⟨Answer, .ok result⟩

/-- It was cut off by a fault. -/
def Outcome.fault (Answer : Type) (fault : Fault) : Outcome := ⟨Answer, .error fault⟩

namespace Exec

variable {α : Type} {S : State → State → Prop} {action action' : Exec α} {state other : State}

/-- How the action ends. -/
def outcome (action : Exec α) (state : State) : Outcome :=
  match action state with
  | .ok result _ => .ok result
  | .error fault _ => .fault α fault

/-- The state in which the action ends, however it ends. -/
def last (action : Exec α) (state : State) : State :=
  match action state with
  | .ok _ after => after
  | .error _ after => after

theorem outcome_ok {result : α} {after : State} (h : action state = .ok result after) :
    action.outcome state = .ok result := by
  simp only [outcome, h]

theorem last_ok {result : α} {after : State} (h : action state = .ok result after) :
    action.last state = after := by
  simp only [last, h]

theorem outcome_error {fault : Fault} {after : State} (h : action state = .error fault after) :
    action.outcome state = .fault α fault := by
  simp only [outcome, h]

theorem last_error {fault : Fault} {after : State} (h : action state = .error fault after) :
    action.last state = after := by
  simp only [last, h]

theorem EndsAlike.last {R : α → α → Prop} (h : EndsAlike S R (action state) (action' other)) :
    S (action.last state) (action'.last other) := by
  unfold Exec.last
  generalize action state = ended at h ⊢
  generalize action' other = ended' at h ⊢
  cases h with
  | ok _ related => exact related
  | error _ related => exact related

theorem EndsAlike.outcome (h : EndsAlike S Eq (action state) (action' other)) :
    action'.outcome other = action.outcome state := by
  unfold Exec.outcome
  generalize action state = ended at h ⊢
  generalize action' other = ended' at h ⊢
  cases h with
  | ok same _ => rw [same]
  | error _ _ => rfl

end Exec

/-! ## Operations -/

/-- What can be done with a machine from outside. -/
inductive Operation where
  /-- Whatever a program can ask for. -/
  | request (request : Request)
  /-- Run a method directly. -/
  | method (method : Method) (args : List Ref)
  /-- Take an element of a container. -/
  | element (value : Ref) (index : Int64)
  /-- Take a part of a container. -/
  | part (value : Ref) (start stop : Int64)
  /-- Make a string of the octets of two others. -/
  | concat (first second : Bytes)
  /-- Read the values that a text spells. -/
  | read (text : List Char)

/-- What an operation is answered with. -/
abbrev Operation.Answer : Operation → Type
  | .request asked => asked.Answer
  | .method _ _ => Ref
  | .element _ _ => Ref
  | .part _ _ _ => Ref
  | .concat _ _ => Ref
  | .read _ => Except ReadError (List Ref)

namespace Machine

variable (machine : Machine)

/-- Do one thing. -/
def perform : (op : Operation) → Exec op.Answer
  | .request request => machine.act (·.answer request)
  | .method method args => machine.runMethod method args
  | .element value index => machine.element value index
  | .part value start stop => machine.part value start stop
  | .concat first second => machine.concatStrings first second
  | .read text => machine.readValues text

/-- How the operations end, each run in the state in which the one before ended. -/
def outcomes : List Operation → State → List Outcome
  | [], _ => []
  | op :: ops, state =>
    (machine.perform op).outcome state :: outcomes ops ((machine.perform op).last state)

/-- The state in which the last of the operations ends. -/
def after : List Operation → State → State
  | [], state => state
  | op :: ops, state => after ops ((machine.perform op).last state)

/-- Run from coupled states, an operation ends alike. -/
theorem steady_perform {S : State → State → Prop} (coupling : FreeCoupling S) (op : Operation) :
    Exec.Steady S (machine.perform op) := by
  cases op with
  | request request =>
    exact machine.steady_act coupling.toCoupling (·.answer request) fun depth =>
      Engine.steady_answer _ coupling (machine.steady_invoke coupling depth) request
  | method method args =>
    exact machine.steady_act coupling.toCoupling (·.invoke method args) fun depth =>
      machine.steady_invoke coupling depth method args
  | element value index => exact steady_element coupling.toCoupling machine value index
  | part value start stop => exact steady_part coupling.toCoupling machine value start stop
  | concat first second => exact steady_newString coupling.toCoupling machine _
  | read text => exact steady_readValues coupling.toCoupling machine text

end Machine

/-! ## Dispatch -/

namespace Machine

variable {machine : Machine}

/-- The method in a slot of a type. -/
def method? (machine : Machine) (type : TypeId) (slot : Nat) : Option Method :=
  (machine.table.entry type).toOption.bind fun entry => entry.method? slot

theorem method?_eq_some_iff {type : TypeId} {slot : Nat} {method : Method} :
    machine.method? type slot = some method ↔
      ∃ entry, machine.table.entry type = .ok entry ∧ entry.method? slot = some method := by
  unfold method?
  cases machine.table.entry type with
  | ok entry => simp [Except.toOption]
  | error error => simp [Except.toOption]

/-- A builtin method that is run from outside is run by a machine that nests calls less deep. -/
theorem invoke_builtin (machine : Machine) (state : State) {builtin : Builtin} {args : List Ref}
    (count : builtin.arity.accepts args.length = true) :
    ∃ depth, (machine.engine (machine.depth state)).invoke (.builtin builtin) args =
      (machine.engine depth).runBuiltin builtin args := by
  obtain ⟨depth, same⟩ := machine.exists_depth state
  refine ⟨depth, ?_⟩
  rw [same]
  exact invoke_builtin_succ count

end Machine

namespace Engine

variable (engine : Engine) (slot : Nat) (state : State)

/-- A method that is sent for in a type is run, and the lack of one is an error. -/
theorem sendAs_apply (type : TypeId) (args : List Ref) :
    (∃ method, engine.machine.method? type slot = some method ∧
      engine.sendAs type slot args state = engine.invoke method args state) ∨
    engine.machine.method? type slot = none ∧
      ∃ error, engine.sendAs type slot args state = .error (.error error) state := by
  unfold sendAs Machine.method?
  cases engine.machine.table.entry type with
  | error error => exact .inr ⟨rfl, error, rfl⟩
  | ok entry =>
    simp only [Except.toOption, Option.bind_some]
    cases found : entry.method? slot with
    | none =>
      refine .inr ⟨rfl, .noMethod entry.name slot, ?_⟩
      simp only [Exec.ofExcept, pure_bind, found]
      rfl
    | some method =>
      refine .inl ⟨method, rfl, ?_⟩
      simp only [Exec.ofExcept, pure_bind, found]

/-- A message goes to the type of the receiver. -/
theorem send_eq_sendAs (receiver : Ref) (args : List Ref) :
    engine.send slot (receiver :: args) state =
      engine.sendAs (state.heap.get receiver).typeId slot (receiver :: args) state := by
  have looked : engine.entryOf receiver state =
      Exec.ofExcept (engine.machine.table.entry (state.heap.get receiver).typeId) state :=
    Exec.bind_ok (Exec.typeId_ok receiver state)
  exact Exec.bind_congr_left looked

end Engine

/-- So it does when it is sent from outside. -/
theorem Machine.send_eq_sendAs (machine : Machine) (slot : Nat) (receiver : Ref) (args : List Ref)
    (state : State) : machine.send slot (receiver :: args) state =
      machine.sendAs (state.heap.get receiver).typeId slot (receiver :: args) state :=
  (machine.engine (machine.depth state)).send_eq_sendAs slot state receiver args

/-! ## What is kept -/

/-- The two states are one, and its heap has the property. -/
def State.SameWith (K : Heap → Prop) (state other : State) : Prop := other = state ∧ K state.heap

variable {K : Heap → Prop}

/-- A coupling of each state with itself: what every new box keeps. -/
theorem coupling_sameWith
    (alloc : ∀ heap box, K heap → box.payload.Made → K (heap.alloc box).2) :
    Coupling (State.SameWith K) where
  twin := by
    rintro state _ ⟨rfl, _⟩
    exact .refl _
  alloc := by
    rintro state _ box ⟨rfl, kept⟩ made
    exact ⟨rfl, alloc _ box kept made⟩
  marks := by
    rintro state _ marks ⟨rfl, kept⟩
    exact ⟨rfl, kept⟩
  sink := by
    rintro state _ sink ⟨rfl, kept⟩
    exact ⟨rfl, kept⟩

/-- What every new box and every elementary change keep. -/
theorem freeCoupling_sameWith
    (alloc : ∀ heap box, K heap → box.payload.Made → K (heap.alloc box).2)
    (push : ∀ heap ref buffer filler item, K heap → (heap.get ref).payload = .array buffer →
      K (heap.setPayload ref (.array (buffer.push filler item))))
    (store : ∀ heap ref buffer changed index item, K heap →
      (heap.get ref).payload = .array buffer → buffer.set? index item = some changed →
        K (heap.setPayload ref (.array changed)))
    (field : ∀ heap ref fields index item, K heap → (heap.get ref).payload = .record fields →
      index < fields.length → K (heap.setPayload ref (.record (fields.set index item)))) :
    FreeCoupling (State.SameWith K) where
  toCoupling := coupling_sameWith alloc
  push := by
    rintro state _ ref buffer buffer' filler item ⟨rfl, kept⟩ held held'
    cases held.symm.trans held'
    exact ⟨rfl, push _ ref buffer filler item kept held⟩
  store := by
    rintro state _ ref buffer buffer' changed changed' index item ⟨rfl, kept⟩ held held' stored
      stored'
    cases held.symm.trans held'
    cases stored.symm.trans stored'
    exact ⟨rfl, store _ ref buffer changed index item kept held stored⟩
  field := by
    rintro state _ ref fields index item ⟨rfl, kept⟩ held _ inside
    exact ⟨rfl, field _ ref fields index item kept held inside⟩

namespace Machine

variable (machine : Machine) {state : State} (coupling : FreeCoupling (State.SameWith K))

include coupling

theorem kept_perform (op : Operation) (kept : K state.heap) :
    K ((machine.perform op).last state).heap :=
  (machine.steady_perform coupling op state state ⟨rfl, kept⟩).last.2

/-- Whatever the operations do and however they end. -/
theorem kept_after (ops : List Operation) (kept : K state.heap) : K (machine.after ops state).heap := by
  induction ops generalizing state with
  | nil => exact kept
  | cons op ops ih => exact ih (kept_perform machine coupling op kept)

end Machine

end BoxedValues
