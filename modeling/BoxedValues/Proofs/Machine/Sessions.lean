import BoxedValues.Proofs.Heap.Plain
import BoxedValues.Proofs.Machine.Giving
import BoxedValues.Proofs.Machine.Operations

/-!
# Arrays behave as plain lists

A machine's arrays are buffers with spare slots. `PlainHeap.perform` is the same machine on plain
lists, for all operations on arrays that run no methods of elements; `PlainHeap.Runs` is a session
of it, in which the other operations may change what is seen in any order (`PlainHeap.Change`), for
they run methods of any kind.

* `Machine.plain_perform`: what is seen after one operation is what the list machine says;
* `freeCoupling_twin`: states that differ in spare slots only stay such states;
* `Machine.arrays_are_lists`: both for whole sessions, together with the invariant that arrays have
  room for their elements.
-/

set_option autoImplicit false

namespace BoxedValues

/-! ## The list machine -/

namespace PlainHeap

variable (machine : Machine) (plain : PlainHeap)

/-- The heap with a new array. -/
def newArray (array : PlainArray) : Ref × PlainHeap := plain.make ⟨machine.ids.array, array.view⟩

/-- The heap with new pairs of elements and their indexes. -/
def indexed (plain : PlainHeap) : List (Ref × Nat) → List Ref × PlainHeap
  | [] => ([], plain)
  | (item, index) :: rest =>
    let (number, plain) := plain.make ⟨machine.ids.int, .int (.ofNat index)⟩
    let (pair, plain) := plain.newArray machine (.ofItems [item, number])
    let (pairs, plain) := indexed plain rest
    (pair :: pairs, plain)

/-- A method of arrays that runs no methods of elements. -/
def runArray (method : ArrayMethod) (args : List Ref) : Option (Ref × PlainHeap) :=
  match method, args with
  | .length, [ref] => (plain.array? ref).map fun array =>
    plain.make ⟨machine.ids.int, .int (.ofNat array.items.length)⟩
  | .isEmpty, [ref] => (plain.array? ref).map fun array =>
    (machine.boolValue (array.items.length == 0), plain)
  | .push, [ref, item] => (plain.array? ref).map fun array =>
    (machine.noneValue, plain.put ref (array.append item).view)
  | .concat, [ref, other] => (plain.array? ref).bind fun array =>
    (plain.array? other).map fun other =>
      plain.newArray machine (.ofItems (array.items ++ other.items))
  | .enumerate, [ref] => (plain.array? ref).map fun array =>
    let (pairs, plain) := plain.indexed machine array.items.zipIdx
    plain.newArray machine (.ofItems pairs)
  | _, _ => none

/-- The method in a slot of a value's type. -/
def method? (slot : Nat) (ref : Ref) : Option Method :=
  plain[ref.index]?.bind fun sight => machine.method? sight.typeId slot

/-- What an operation on arrays is answered with, and what is seen afterwards. There is no answer
here for operations that run methods of elements or are not about arrays. -/
def perform : Operation → Option (Outcome × PlainHeap)
  | .request (.array items) =>
    let (ref, plain) := plain.newArray machine (.ofItems items)
    some (.ok ref, plain)
  | .request (.filledArray length capacity) =>
    let (ref, plain) := plain.newArray machine (.filled machine.noneValue length capacity)
    some (.ok ref, plain)
  | .request (.view ref) => (plain.array? ref).map fun array => (.ok array.view, plain)
  | .request (.set ref index item) => (plain.array? ref).map fun array =>
    if index < array.items.length then (.ok (), plain.put ref (array.replace index item).view)
    else if index < array.capacity then (.ok (), plain)
    else (.fault Unit (.storeBeyondCapacity index array.capacity), plain)
  | .request (.push ref item) => (plain.array? ref).map fun array =>
    (.ok (), plain.put ref (array.append item).view)
  | .request (.call slot (ref :: args)) =>
    match plain.method? machine slot ref with
    | some (.builtin (.array method)) => (plain.runArray machine method (ref :: args)).map fun ran =>
      (.ok (.ok ran.1 : Except MachineError Ref), ran.2)
    | _ => none
  | .element ref index => (plain.array? ref).map fun array =>
    (.ok ((Position.get? array.items index).getD machine.noneValue), plain)
  | .part ref start stop => (plain.array? ref).map fun array =>
    let (part, plain) := plain.newArray machine (.ofItems (Position.slice array.items start stop))
    (.ok part, plain)
  | .method (.builtin (.array method)) args => (plain.runArray machine method args).map fun ran =>
    (.ok ran.1, ran.2)
  | _ => none

/-- A session on plain lists. Operations without an answer of their own may make any changes. -/
inductive Runs (machine : Machine) : PlainHeap → List Operation → List Outcome → PlainHeap → Prop where
  | nil (plain : PlainHeap) : Runs machine plain [] [] plain
  | performed {plain middle last : PlainHeap} {op : Operation} {outcome : Outcome}
      {ops : List Operation} {outcomes : List Outcome} :
      plain.perform machine op = some (outcome, middle) → Runs machine middle ops outcomes last →
        Runs machine plain (op :: ops) (outcome :: outcomes) last
  | changed {plain middle last : PlainHeap} {op : Operation} (outcome : Outcome)
      {ops : List Operation} {outcomes : List Outcome} :
      plain.perform machine op = none → Relation.ReflTransGen Change plain middle →
        Runs machine middle ops outcomes last →
          Runs machine plain (op :: ops) (outcome :: outcomes) last

end PlainHeap

/-! ## One operation -/

namespace Exec

variable {α β : Type} {action : Exec α} {next : α → Exec β} {state : State} {result : α} {last : β}
  {plain plain' : PlainHeap}

/-- The action has this result, and this is seen afterwards. -/
def Shows (action : Exec α) (state : State) (result : α) (plain : PlainHeap) : Prop :=
  ∃ after, action state = .ok result after ∧ after.heap.plain = plain

theorem shows_of_ok (h : action state = .ok result state) :
    action.Shows state result state.heap.plain := ⟨state, h, rfl⟩

theorem Shows.bind (first : action.Shows state result plain)
    (rest : ∀ after, after.heap.plain = plain → (next result).Shows after last plain') :
    (action >>= next).Shows state last plain' := by
  obtain ⟨middle, ran, seen⟩ := first
  obtain ⟨after, ranLast, seenLast⟩ := rest middle seen
  exact ⟨after, by rw [bind_ok ran, ranLast], seenLast⟩

/-- A first part that only looks at the state. -/
theorem shows_bind_ok (h : action state = .ok result state)
    (rest : (next result).Shows state last plain) : (action >>= next).Shows state last plain := by
  obtain ⟨after, ran, seen⟩ := rest
  exact ⟨after, by rw [bind_ok h, ran], seen⟩

theorem shows_alloc (box : Box) (seen : state.heap.plain = plain) :
    (alloc box).Shows state (plain.make box.sight).1 (plain.make box.sight).2 := by
  subst seen
  refine ⟨{ state with heap := (state.heap.alloc box).2 }, ?_, Heap.plain_alloc _ _⟩
  simp only [PlainHeap.make, Heap.length_plain]
  rfl

theorem Shows.performed (h : action.Shows state result plain) :
    action.outcome state = .ok result ∧ (action.last state).heap.plain = plain := by
  obtain ⟨after, ran, seen⟩ := h
  exact ⟨outcome_ok ran, by rw [last_ok ran, seen]⟩

end Exec

namespace Machine

open Exec

variable {machine : Machine} {state : State} {plain : PlainHeap}

theorem shows_newArray (machine : Machine) (items : List Ref) (seen : state.heap.plain = plain) :
    (machine.newArray items).Shows state (plain.newArray machine (.ofItems items)).1
      (plain.newArray machine (.ofItems items)).2 := by
  have shown := shows_alloc ⟨machine.ids.array, .array (.ofItems machine.noneValue items)⟩ seen
  rw [PlainHeap.newArray, ← Buffer.plain_ofItems machine.noneValue items]
  exact shown

theorem shows_newFilledArray (machine : Machine) (length capacity : Nat)
    (seen : state.heap.plain = plain) : (machine.newFilledArray length capacity).Shows state
      (plain.newArray machine (.filled machine.noneValue length capacity)).1
      (plain.newArray machine (.filled machine.noneValue length capacity)).2 := by
  have shown :=
    shows_alloc ⟨machine.ids.array, .array (.filled machine.noneValue length capacity)⟩ seen
  rw [PlainHeap.newArray, ← Buffer.plain_filled machine.noneValue length capacity]
  exact shown

/-- A store into a slot that the array has replaces the element in it, if there is one. -/
theorem shows_setSlot {ref : Ref} {array : PlainArray} {index : Nat}
    (held : state.heap.plain.array? ref = some array) (inside : index < array.capacity) (item : Ref) :
    (setSlot ref index item).Shows state ()
      (state.heap.plain.put ref (array.replace index item).view) := by
  obtain ⟨buffer, payload, rfl⟩ := Heap.exists_of_array?_plain held
  have stored : ∃ changed, buffer.set? index item = some changed := by
    rw [← Option.ne_none_iff_exists', ne_eq, Buffer.set?_eq_none_iff]
    exact Nat.not_le.2 inside
  obtain ⟨changed, stored⟩ := stored
  have seen : (state.heap.setPayload ref (.array changed)).plain =
      state.heap.plain.put ref (buffer.plain.replace index item).view := Heap.plain_store stored
  exact ⟨_, setSlot_ok payload stored, seen⟩

/-- A store into a slot that the array does not have is a fault, and nothing else happens. -/
theorem setSlot_beyond {ref : Ref} {array : PlainArray} {index : Nat}
    (held : state.heap.plain.array? ref = some array) (beyond : array.capacity ≤ index) (item : Ref) :
    setSlot ref index item state = .error (.storeBeyondCapacity index array.capacity) state := by
  obtain ⟨buffer, payload, rfl⟩ := Heap.exists_of_array?_plain held
  exact setSlot_error payload (Buffer.set?_eq_none_iff.2 beyond)

theorem shows_push (machine : Machine) {ref : Ref} {array : PlainArray} (roomy : state.heap.Roomy)
    (held : state.heap.plain.array? ref = some array) (item : Ref) :
    (machine.push ref item).Shows state () (state.heap.plain.put ref (array.append item).view) := by
  obtain ⟨buffer, payload, rfl⟩ := Heap.exists_of_array?_plain held
  exact ⟨_, push_ok payload machine item, Heap.plain_push roomy payload machine.noneValue item⟩

theorem shows_indexed {engine : Engine} (entries : List (Ref × Nat))
    (seen : state.heap.plain = plain) : (entries.mapM engine.indexed).Shows state
      (plain.indexed engine.machine entries).1 (plain.indexed engine.machine entries).2 := by
  induction entries generalizing state plain with
  | nil => exact ⟨state, rfl, seen⟩
  | cons entry rest ih =>
    rw [List.mapM_cons]
    refine Shows.bind (Shows.bind (shows_alloc _ seen) fun after seen =>
      shows_newArray engine.machine _ seen) fun after seen => ?_
    exact (ih seen).bind fun after seen => ⟨after, rfl, seen⟩

/-- The methods of arrays do what the list machine says. -/
theorem shows_runArray (engine : Engine) (roomy : state.heap.Roomy) {method : ArrayMethod}
    {args : List Ref} {result : Ref}
    (said : state.heap.plain.runArray engine.machine method args = some (result, plain)) :
    method.arity.accepts args.length = true ∧
      (engine.runArray method args).Shows state result plain := by
  have received {ref : Ref} {array : PlainArray} (rest : List Ref)
      (seen : state.heap.plain.array? ref = some array) : ∃ buffer, buffer.plain = array ∧
        buffer.length = array.items.length ∧
          Arguments.receiver .array (ref :: rest) state = .ok buffer state := by
    obtain ⟨buffer, payload, rfl⟩ := Heap.exists_of_array?_plain seen
    refine ⟨buffer, rfl, (Buffer.length_live (roomy ref buffer payload)).symm, ?_⟩
    exact Arguments.receiver_ok (by rw [payload]; rfl)
  unfold PlainHeap.runArray at said
  split at said
  · rename_i ref
    obtain ⟨array, seen, same⟩ := Option.map_eq_some_iff.1 said
    obtain ⟨buffer, rfl, length, receives⟩ := received [] seen
    refine ⟨rfl, shows_bind_ok receives ?_⟩
    dsimp only
    rw [length]
    cases same
    exact shows_alloc _ rfl
  · rename_i ref
    obtain ⟨array, seen, same⟩ := Option.map_eq_some_iff.1 said
    obtain ⟨buffer, rfl, length, receives⟩ := received [] seen
    refine ⟨rfl, shows_bind_ok receives ?_⟩
    dsimp only
    rw [length]
    cases same
    exact shows_of_ok rfl
  · rename_i ref item
    obtain ⟨array, seen, same⟩ := Option.map_eq_some_iff.1 said
    obtain ⟨buffer, rfl, length, receives⟩ := received [item] seen
    refine ⟨rfl, shows_bind_ok receives ?_⟩
    dsimp only
    cases same
    refine shows_bind_ok (Arguments.given_zero state) (shows_bind_ok (Arguments.given_one state) ?_)
    exact (shows_push engine.machine roomy seen item).bind fun after seen => ⟨after, rfl, seen⟩
  · rename_i ref other
    obtain ⟨array, seen, same⟩ := Option.bind_eq_some_iff.1 said
    obtain ⟨array', seen', same⟩ := Option.map_eq_some_iff.1 same
    obtain ⟨buffer, rfl, length, receives⟩ := received [other] seen
    obtain ⟨buffer', payload, rfl⟩ := Heap.exists_of_array?_plain seen'
    refine ⟨rfl, shows_bind_ok receives ?_⟩
    dsimp only
    cases same
    have required : Arguments.required .array [ref, other] 1 state = .ok buffer' state :=
      Arguments.required_ok rfl (by rw [payload]; rfl)
    exact shows_bind_ok required (shows_newArray engine.machine _ rfl)
  · rename_i ref
    obtain ⟨array, seen, same⟩ := Option.map_eq_some_iff.1 said
    obtain ⟨buffer, rfl, length, receives⟩ := received [] seen
    refine ⟨rfl, shows_bind_ok receives ?_⟩
    dsimp only
    cases same
    exact (shows_indexed _ rfl).bind fun after seen => shows_newArray engine.machine _ seen
  · cases said

/-- The methods of arrays, run from outside. -/
theorem shows_invoke (roomy : state.heap.Roomy) {method : ArrayMethod} {args : List Ref}
    {result : Ref} (said : state.heap.plain.runArray machine method args = some (result, plain)) :
    ((machine.engine (machine.depth state)).invoke (.builtin (.array method)) args).Shows state
      result plain := by
  have accepted : (Builtin.array method).arity.accepts args.length = true :=
    (shows_runArray (machine.engine 0) roomy said).1
  obtain ⟨depth, same⟩ := invoke_builtin machine state accepted
  rw [same]
  exact (shows_runArray (machine.engine depth) roomy said).2

/-- A call finds its method as the list machine does. -/
theorem send_eq_invoke (engine : Engine) {slot : Nat} {ref : Ref} {args : List Ref} {method : Method}
    (found : state.heap.plain.method? engine.machine slot ref = some method) :
    engine.send slot (ref :: args) state = engine.invoke method (ref :: args) state := by
  obtain ⟨sight, seen, found⟩ := Option.bind_eq_some_iff.1 found
  rw [Heap.getElem?_plain, Option.map_eq_some_iff] at seen
  obtain ⟨box, held, rfl⟩ := seen
  have type : (state.heap.get ref).typeId = box.typeId := congrArg Box.typeId (Heap.Holds.get held)
  rw [engine.send_eq_sendAs, type]
  rcases engine.sendAs_apply slot state box.typeId (ref :: args) with
    ⟨other, found', ran⟩ | ⟨missing, _⟩
  · cases found.symm.trans found'
    exact ran
  · exact nomatch found.symm.trans missing

theorem performed_view {ref : Ref} {array : PlainArray}
    (held : state.heap.plain.array? ref = some array) :
    (machine.perform (.request (.view ref))).Shows state array.view state.heap.plain := by
  obtain ⟨buffer, kept, rfl⟩ := Heap.exists_of_array?_plain held
  refine ⟨state, ?_, rfl⟩
  show (do return (← payload ref).view : Exec View) state = _
  rw [bind_ok (payload_ok ref state), kept]
  rfl

theorem performed_set {ref : Ref} {array : PlainArray} (roomy : state.heap.Roomy)
    (held : state.heap.plain.array? ref = some array) {index : Nat} {item : Ref} {outcome : Outcome}
    (same : (if index < array.items.length then
        (.ok (), state.heap.plain.put ref (array.replace index item).view)
      else if index < array.capacity then (.ok (), state.heap.plain)
      else (.fault Unit (.storeBeyondCapacity index array.capacity), state.heap.plain)) =
        (outcome, plain)) :
    (setSlot ref index item).outcome state = outcome ∧
      ((setSlot ref index item).last state).heap.plain = plain := by
  split at same
  · rename_i live
    obtain ⟨buffer, payload, rfl⟩ := Heap.exists_of_array?_plain held
    have inside : index < buffer.capacity := by
      have room := roomy ref buffer payload
      rw [← Buffer.length_live room] at room
      exact Nat.lt_of_lt_of_le live room
    cases same
    exact (shows_setSlot held inside item).performed
  split at same
  · rename_i spare inside
    cases same
    have shown := shows_setSlot held inside item
    rw [PlainHeap.put_replace_of_le held item (Nat.not_lt.1 spare)] at shown
    exact shown.performed
  · rename_i beyond
    cases same
    have faulty := setSlot_beyond held (Nat.not_lt.1 beyond) item
    exact ⟨outcome_error faulty, congrArg (·.heap.plain) (last_error faulty)⟩

theorem performed_method (roomy : state.heap.Roomy) {method : ArrayMethod} {args : List Ref}
    {result : Ref} (said : state.heap.plain.runArray machine method args = some (result, plain)) :
    (machine.perform (.method (.builtin (.array method)) args)).Shows state result plain := by
  obtain ⟨after, ran, seen⟩ := shows_invoke roomy said
  refine ⟨after, ?_, seen⟩
  show machine.act (·.invoke (.builtin (.array method)) args) state = _
  rw [act_apply, ran]

theorem performed_call (roomy : state.heap.Roomy) {slot : Nat} {ref : Ref} {args : List Ref}
    {method : ArrayMethod} {result : Ref}
    (found : state.heap.plain.method? machine slot ref = some (.builtin (.array method)))
    (said : state.heap.plain.runArray machine method (ref :: args) = some (result, plain)) :
    (machine.perform (.request (.call slot (ref :: args)))).Shows state (.ok result) plain := by
  obtain ⟨after, ran, seen⟩ := shows_invoke roomy said
  exact ⟨after, attempt_ok ((send_eq_invoke _ found).trans ran), seen⟩

theorem shows_element {ref : Ref} {array : PlainArray}
    (held : state.heap.plain.array? ref = some array) (index : Int64) :
    (machine.element ref index).Shows state
      ((Position.get? array.items index).getD machine.noneValue) state.heap.plain := by
  obtain ⟨buffer, kept, rfl⟩ := Heap.exists_of_array?_plain held
  refine ⟨state, ?_, rfl⟩
  unfold element
  rw [bind_ok (payload_ok ref state), kept]
  rfl

theorem shows_part {ref : Ref} {array : PlainArray}
    (held : state.heap.plain.array? ref = some array) (start stop : Int64) :
    (machine.part ref start stop).Shows state
      (state.heap.plain.newArray machine (.ofItems (Position.slice array.items start stop))).1
      (state.heap.plain.newArray machine (.ofItems (Position.slice array.items start stop))).2 := by
  obtain ⟨buffer, kept, rfl⟩ := Heap.exists_of_array?_plain held
  obtain ⟨after, ran, shown⟩ : (machine.newArray (Position.slice buffer.live start stop)).Shows state
    _ _ := shows_newArray machine _ rfl
  refine ⟨after, ?_, shown⟩
  unfold part
  rw [bind_ok (payload_ok ref state), kept]
  exact ran

/-- **One operation does to plain lists what the list machine says.** -/
theorem plain_perform (machine : Machine) (roomy : state.heap.Roomy) {op : Operation}
    {outcome : Outcome} (said : state.heap.plain.perform machine op = some (outcome, plain)) :
    (machine.perform op).outcome state = outcome ∧
      ((machine.perform op).last state).heap.plain = plain := by
  unfold PlainHeap.perform at said
  split at said
  · rename_i items
    cases said
    exact (shows_newArray machine items rfl).performed
  · rename_i length capacity
    cases said
    exact (shows_newFilledArray machine length capacity rfl).performed
  · rename_i ref
    obtain ⟨array, held, same⟩ := Option.map_eq_some_iff.1 said
    cases same
    exact (performed_view held).performed
  · rename_i ref index item
    obtain ⟨array, held, same⟩ := Option.map_eq_some_iff.1 said
    exact performed_set roomy held same
  · rename_i ref item
    obtain ⟨array, held, same⟩ := Option.map_eq_some_iff.1 said
    cases same
    exact (shows_push machine roomy held item).performed
  · rename_i slot ref args
    split at said
    · rename_i method found
      obtain ⟨⟨result, last⟩, ran, same⟩ := Option.map_eq_some_iff.1 said
      cases same
      exact (performed_call roomy found ran).performed
    · cases said
  · rename_i ref index
    obtain ⟨array, held, same⟩ := Option.map_eq_some_iff.1 said
    cases same
    exact (shows_element held index).performed
  · rename_i ref start stop
    obtain ⟨array, held, same⟩ := Option.map_eq_some_iff.1 said
    cases same
    exact (shows_part held start stop).performed
  · rename_i method args
    obtain ⟨⟨result, last⟩, ran, same⟩ := Option.map_eq_some_iff.1 said
    cases same
    exact (performed_method roomy ran).performed
  · cases said

end Machine

/-! ## All operations -/

/-- Arrays keep room for their elements, and what is seen changes step by step. -/
theorem freeCoupling_changes (base : PlainHeap) : FreeCoupling (State.SameWith fun heap =>
    heap.Roomy ∧ Relation.ReflTransGen PlainHeap.Change base heap.plain) := by
  apply freeCoupling_sameWith
  case alloc =>
    rintro heap box ⟨roomy, changes⟩ made
    refine ⟨roomy.alloc box made.roomy, changes.tail ?_⟩
    rw [Heap.plain_alloc]
    exact .make heap.plain box.sight
  case push =>
    rintro heap ref buffer filler item ⟨roomy, changes⟩ held
    refine ⟨roomy.push held filler item, changes.tail ?_⟩
    rw [Heap.plain_push roomy held]
    exact .append item (Heap.array?_plain held)
  case store =>
    rintro heap ref buffer changed index item ⟨roomy, changes⟩ held stored
    refine ⟨roomy.store held stored, ?_⟩
    rw [Heap.plain_store stored]
    by_cases live : index < buffer.live.length
    · exact changes.tail (.replace item (Heap.array?_plain held) live)
    · rw [PlainHeap.put_replace_of_le (Heap.array?_plain held) item (Nat.not_lt.1 live)]
      exact changes
  case field =>
    rintro heap ref fields index item ⟨roomy, changes⟩ held inside
    refine ⟨roomy.setPayload ref nofun, changes.tail ?_⟩
    rw [Heap.plain_setPayload]
    exact .field item (Heap.getElem?_plain_of_payload held nofun) inside

namespace State.Twin

variable {state other : State}

theorem alloc (h : state.Twin other) (box : Box) : State.Twin
    { state with heap := (state.heap.alloc box).2 }
    { other with heap := (other.heap.alloc box).2 } where
  size := by simp only [Heap.size_alloc, h.size]
  box ref := by
    rcases Nat.lt_trichotomy ref.index state.heap.size with inside | new | beyond
    · simp only [Heap.get_alloc_of_lt state.heap box inside,
        Heap.get_alloc_of_lt other.heap box (h.size.symm ▸ inside)]
      exact h.box ref
    · have same : ref = (state.heap.alloc box).1 := by
        cases ref
        exact congrArg Ref.mk new
      have same' : ref = (other.heap.alloc box).1 := by
        rw [same, Heap.alloc_ref, Heap.alloc_ref, h.size]
      have got : (state.heap.alloc box).2.get ref = box := by rw [same, Heap.get_alloc_self]
      have got' : (other.heap.alloc box).2.get ref = box := by rw [same', Heap.get_alloc_self]
      simp only [got, got']
      exact .refl box
    · have above : (state.heap.alloc box).2.size ≤ ref.index := by
        rw [Heap.size_alloc]
        exact beyond
      have above' : (other.heap.alloc box).2.size ≤ ref.index := by
        rw [Heap.size_alloc, h.size]
        exact beyond
      simp only [Heap.get_of_le above, Heap.get_of_le above']
      exact .refl _
  marks := h.marks
  sink := h.sink

theorem setPayload (h : state.Twin other) (ref : Ref) {payload payload' : Payload}
    (twin : payload.Twin payload') : State.Twin
      { state with heap := state.heap.setPayload ref payload }
      { other with heap := other.heap.setPayload ref payload' } where
  size := by simp only [Heap.size_setPayload, h.size]
  box value := by
    by_cases same : value = ref
    · subst same
      by_cases inside : value.index < state.heap.size
      · simp only [Heap.get_setPayload_self state.heap payload inside,
          Heap.get_setPayload_self other.heap payload' (h.size.symm ▸ inside)]
        exact ⟨(h.box value).typeId, twin⟩
      · have beyond := Nat.not_lt.1 inside
        simp only [Heap.setPayload_of_le state.heap payload beyond,
          Heap.setPayload_of_le other.heap payload' (h.size.symm ▸ beyond)]
        exact h.box value
    · simp only [Heap.get_setPayload_of_ne state.heap payload same,
        Heap.get_setPayload_of_ne other.heap payload' same]
      exact h.box value
  marks := h.marks
  sink := h.sink

/-- Where the one has an array, the other has a twin of it. -/
theorem exists_array (h : state.Twin other) {ref : Ref} {buffer : Buffer}
    (held : (state.heap.get ref).payload = .array buffer) :
    ∃ buffer', (other.heap.get ref).payload = .array buffer' ∧ buffer.Twin buffer' := by
  have twin := (h.box ref).payload
  rw [held] at twin
  rcases twin.eq_or_array with same | ⟨_, buffer', ⟨⟩, held', same⟩
  · exact ⟨buffer, same, .refl buffer⟩
  · exact ⟨buffer', held', same⟩

theorem array (h : state.Twin other) {ref : Ref} {buffer buffer' : Buffer}
    (held : (state.heap.get ref).payload = .array buffer)
    (held' : (other.heap.get ref).payload = .array buffer') : buffer.Twin buffer' := by
  have twin := (h.box ref).payload
  rwa [held, held'] at twin

end State.Twin

/-- **States that differ in spare slots only stay such states**, whatever is done in both. -/
theorem freeCoupling_twin : FreeCoupling State.Twin where
  twin h := h
  alloc box h _ := h.alloc box
  marks _ h := ⟨h.size, h.box, rfl, h.sink⟩
  sink _ h := ⟨h.size, h.box, h.marks, rfl⟩
  push _ _ h held held' := h.setPayload _ (h.array held held').push
  store h held held' stored stored' := h.setPayload _ ((h.array held held').set stored stored')
  field _ h _ _ _ := h.setPayload _ rfl

/-- What is stored into a spare slot makes no difference. -/
theorem endsAlike_spare {state other : State} (twin : state.Twin other) {ref : Ref}
    {array : PlainArray} (held : state.heap.plain.array? ref = some array) {index : Nat}
    (spare : array.items.length ≤ index) (item item' : Ref) : Exec.EndsAlike State.Twin Eq
      (Exec.setSlot ref index item state) (Exec.setSlot ref index item' other) := by
  obtain ⟨buffer, kept, rfl⟩ := Heap.exists_of_array?_plain held
  obtain ⟨buffer', kept', same⟩ := twin.exists_array kept
  have both := same.set?_isSome index item item'
  cases stored : buffer.set? index item with
  | none =>
    rw [stored, Option.isSome_none, Option.isSome_eq_false_iff, Option.isNone_iff_eq_none] at both
    rw [Exec.setSlot_error kept stored, Exec.setSlot_error kept' both, same.capacity]
    exact .error _ twin
  | some changed =>
    rw [stored, Option.isSome_some, Option.isSome_iff_exists] at both
    obtain ⟨changed', stored'⟩ := both
    rw [Exec.setSlot_ok kept stored, Exec.setSlot_ok kept' stored']
    exact .ok rfl (twin.setPayload ref (same.set_spare spare stored stored'))

namespace Machine

variable {machine : Machine} {state other : State} {ops ops' : List Operation}

/-- The operations differ only in what is stored into slots at or beyond the length of an array. -/
inductive Varying (machine : Machine) : State → List Operation → List Operation → Prop where
  | nil (state : State) : Varying machine state [] []
  | same {state : State} {ops ops' : List Operation} (op : Operation) :
      Varying machine ((machine.perform op).last state) ops ops' →
        Varying machine state (op :: ops) (op :: ops')
  | spare {state : State} {ops ops' : List Operation} {ref : Ref} {array : PlainArray} {index : Nat}
      (item item' : Ref) : state.heap.plain.array? ref = some array → array.items.length ≤ index →
        Varying machine ((machine.perform (.request (.set ref index item))).last state) ops ops' →
          Varying machine state (.request (.set ref index item) :: ops)
            (.request (.set ref index item') :: ops')

/-- What is seen goes as on the list machine. -/
theorem plain_runs (roomy : state.heap.Roomy) (ops : List Operation) :
    PlainHeap.Runs machine state.heap.plain ops (machine.outcomes ops state)
      (machine.after ops state).heap.plain := by
  induction ops generalizing state with
  | nil => exact .nil _
  | cons op ops ih =>
    obtain ⟨roomy', changes⟩ :=
      kept_perform machine (freeCoupling_changes state.heap.plain) op ⟨roomy, .refl⟩
    cases said : state.heap.plain.perform machine op with
    | none => exact .changed _ said changes (ih roomy')
    | some answer =>
      obtain ⟨same, seen⟩ := plain_perform machine roomy said
      refine .performed ?_ (ih roomy')
      rw [said, same, seen]

/-- Sessions that vary only in what is stored into spare slots go alike. -/
theorem Varying.alike (varying : machine.Varying state ops ops') (twin : state.Twin other) :
    machine.outcomes ops' other = machine.outcomes ops state ∧
      (machine.after ops state).Twin (machine.after ops' other) := by
  induction varying generalizing other with
  | nil => exact ⟨rfl, twin⟩
  | same op _ ih =>
    have alike := machine.steady_perform freeCoupling_twin op _ _ twin
    obtain ⟨rest, last⟩ := ih alike.last
    exact ⟨congrArg₂ List.cons alike.outcome rest, last⟩
  | spare item item' held spare _ ih =>
    have alike := endsAlike_spare twin held spare item item'
    obtain ⟨rest, last⟩ := ih alike.last
    exact ⟨congrArg₂ List.cons alike.outcome rest, last⟩

/-- The first state of a machine has room in all arrays if the heap had before. -/
theorem roomy_finish {setup : Setup} {heap : Heap} {sink : Sink} (roomy : heap.Roomy)
    (finished : setup.finish heap sink = .ok (machine, state)) : state.heap.Roomy := by
  obtain ⟨_, _, _, rfl⟩ := Setup.finish_ok finished
  refine .alloc (.alloc (.alloc (.alloc (.alloc (.alloc roomy _ ?_) _ ?_) _ ?_) _ ?_) _ ?_) _ ?_
  all_goals nofun

/-- **Arrays behave as plain lists, and their spare slots are out of sight.** Whatever methods are
registered and whatever operations are done one after another, failing ones included:

* every array has room for its elements;
* what is seen of the heap goes as on the list machine, in which a new array of a length and a
  capacity is that many `None`s, a push appends, and a store replaces the element at a position
  below the length and changes nothing in a slot above it;
* a store at or beyond the capacity is a fault and changes nothing at all;
* another session that varies only in what is stored into slots at or beyond the length has the same
  outcomes, and ends in a state that differs in spare slots at most. -/
theorem arrays_are_lists (machine : Machine) (state : State) (roomy : state.heap.Roomy) :
    (∀ ops, (machine.after ops state).heap.Roomy) ∧
    (∀ ops, PlainHeap.Runs machine state.heap.plain ops (machine.outcomes ops state)
      (machine.after ops state).heap.plain) ∧
    (∀ ops ref array index item,
      (machine.after ops state).heap.plain.array? ref = some array → array.capacity ≤ index →
        machine.perform (.request (.set ref index item)) (machine.after ops state) =
          .error (.storeBeyondCapacity index array.capacity) (machine.after ops state)) ∧
    ∀ ops ops', machine.Varying state ops ops' →
      machine.outcomes ops' state = machine.outcomes ops state ∧
        (machine.after ops state).Twin (machine.after ops' state) := by
  refine ⟨?_, plain_runs roomy, ?_, ?_⟩
  · intro ops
    exact (kept_after machine (freeCoupling_changes state.heap.plain) ops ⟨roomy, .refl⟩).1
  · intro ops ref array index item held beyond
    exact setSlot_beyond held beyond item
  · intro ops ops' varying
    exact varying.alike (.refl state)

theorem roomy_bareState : bareState.heap.Roomy := by
  have empty : Heap.empty.Roomy := by
    intro ref
    rw [Heap.get_of_le (Nat.zero_le _)]
    nofun
  have finished : Setup.finish ⟨.standard, .ofSize 6⟩ .empty .unlimited = .ok (bare, bareState) := rfl
  exact roomy_finish empty finished

/-- An array of one `None` with room for two: stores into its second slot are seen by nobody, and the
push after them overwrites what they left. -/
theorem arrays_are_lists_spare :
    let begin : List Operation := [.request (.filledArray 1 2)]
    let finish : List Operation := [.request (.push ⟨6⟩ ⟨1⟩), .request (.view ⟨6⟩)]
    let store (item : Ref) : Operation := .request (.set ⟨6⟩ 1 item)
    bare.outcomes (begin ++ [store ⟨2⟩] ++ finish) bareState =
        [.ok (⟨6⟩ : Ref), .ok (), .ok (), .ok (View.array [⟨0⟩, ⟨1⟩] 2)] ∧
      bare.outcomes (begin ++ [store ⟨3⟩] ++ finish) bareState =
        bare.outcomes (begin ++ [store ⟨2⟩] ++ finish) bareState := by
  intro begin finish store
  obtain ⟨_, _, _, unseen⟩ := arrays_are_lists bare bareState roomy_bareState
  have held : (bare.after begin bareState).heap.plain.array? ⟨6⟩ = some ⟨[⟨0⟩], 2⟩ := rfl
  refine ⟨rfl, (unseen _ _ (.same _ (.spare ⟨2⟩ ⟨3⟩ held (by decide) (.same _ (.same _ (.nil _)))))).1⟩

end Machine

end BoxedValues
