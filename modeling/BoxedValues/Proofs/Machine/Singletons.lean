import BoxedValues.Proofs.Literal.Evaluating
import BoxedValues.Proofs.Machine.Operations

/-!
# Values that exist once

`None`, the two truth values and their texts are made with the machine, and everything that needs
one of them takes it from there. Other boxes are made anew each time. What else is on the heap may
hold payloads like theirs, too: there may be boxes from before the machine, and more may come from
elsewhere while it runs (`Event`).

* `Heap.Continues` is what an operation keeps: no box is lost, and none of those that exist once is
  new (`continues_perform`, the step);
* `persists_undergoes` and `single_of_undergoes` say the same of all events (the run);
* `Produces` and `Makes` list what is taken from the machine and what is made anew;
* `keepsIdentity`: both hold at every moment, whatever happened before.
-/

set_option autoImplicit false

namespace BoxedValues

/-! ## What an operation keeps -/

/-- Every box is there, perhaps with other contents, and none of those that exist once is new. -/
structure Heap.Continues (before after : Heap) : Prop where
  persists : before.Persists after
  single : ∀ ref box, after.Holds ref box → box.payload.isSingle = true → before.Holds ref box

namespace Heap.Continues

variable {before after : Heap} {ref : Ref}

theorem refl (heap : Heap) : heap.Continues heap := ⟨.refl heap, fun _ _ held _ => held⟩

theorem alloc (h : before.Continues after) {box : Box} (made : box.payload.Made) :
    before.Continues (after.alloc box).2 where
  persists := h.persists.trans (extends_alloc after box).persists
  single ref other held single := by
    rcases holds_alloc_iff.1 held with old | ⟨_, rfl⟩
    · exact h.single ref other old single
    · rw [made.isSingle] at single
      cases single

theorem setPayload (h : before.Continues after) {payload : Payload}
    (kind : payload.kind = (after.get ref).payload.kind) (mutable : payload.kind.isMutable = true) :
    before.Continues (after.setPayload ref payload) where
  persists := h.persists.trans (persists_setPayload kind mutable)
  single other box held single := by
    rcases held.of_setPayload with old | rfl
    · exact h.single other box old single
    · cases same : box.payload <;> rw [same] at single mutable <;> cases single <;> cases mutable

end Heap.Continues

theorem freeCoupling_continues (base : Heap) : FreeCoupling (State.SameWith (base.Continues ·)) :=
  freeCoupling_sameWith (fun _ _ kept made => kept.alloc made)
    (fun _ _ _ _ _ kept held => kept.setPayload (by rw [held]; rfl) rfl)
    (fun _ _ _ _ _ _ kept held _ => kept.setPayload (by rw [held]; rfl) rfl)
    (fun _ _ _ _ _ kept held _ => kept.setPayload (by rw [held]; rfl) rfl)

/-! ## Events -/

/-- What happens to a machine: something is done with it, or a box comes from elsewhere. -/
inductive Event where
  | operation (op : Operation)
  | arrival (box : Box)

namespace Machine

variable {machine : Machine} {state start : State} {events : List Event} {ref : Ref} {box : Box}

/-- The state after an event. -/
def undergo (machine : Machine) : Event → State → State
  | .operation op, state => (machine.perform op).last state
  | .arrival box, state => { state with heap := (state.heap.alloc box).2 }

/-- The state after events one after another. -/
def undergoes (machine : Machine) : List Event → State → State
  | [], state => state
  | event :: events, state => undergoes machine events (machine.undergo event state)

/-- The boxes that come from elsewhere. -/
def arrivals (machine : Machine) : List Event → State → List Ref
  | [], _ => []
  | .operation op :: events, state => arrivals machine events (machine.undergo (.operation op) state)
  | .arrival box :: events, state =>
    ⟨state.heap.size⟩ :: arrivals machine events (machine.undergo (.arrival box) state)

theorem continues_perform (machine : Machine) (op : Operation) (state : State) :
    state.heap.Continues ((machine.perform op).last state).heap :=
  machine.kept_perform (freeCoupling_continues state.heap) op (.refl state.heap)

theorem persists_undergo (machine : Machine) (event : Event) (state : State) :
    state.heap.Persists (machine.undergo event state).heap := by
  cases event with
  | operation op => exact (machine.continues_perform op state).persists
  | arrival box => exact (Heap.extends_alloc state.heap box).persists

/-- No box is lost, and none changes its type or its kind. -/
theorem persists_undergoes (machine : Machine) (events : List Event) (state : State) :
    state.heap.Persists (machine.undergoes events state).heap := by
  induction events generalizing state with
  | nil => exact .refl state.heap
  | cons event events ih => exact (machine.persists_undergo event state).trans (ih _)

/-- Of the boxes that exist once, there are only those that were there before or came from
elsewhere. -/
theorem single_of_undergoes (machine : Machine) (events : List Event) (state : State)
    (held : (machine.undergoes events state).heap.Holds ref box)
    (single : box.payload.isSingle = true) :
    state.heap.Holds ref box ∨ ref ∈ machine.arrivals events state := by
  induction events generalizing state with
  | nil => exact .inl held
  | cons event events ih =>
    rcases ih (machine.undergo event state) held with old | arrived
    · cases event with
      | operation op => exact .inl ((machine.continues_perform op state).single ref box old single)
      | arrival new =>
        rcases Heap.holds_alloc_iff.1 old with older | ⟨rfl, _⟩
        · exact .inl older
        · exact .inr (.head _)
    · cases event with
      | operation op => exact .inr arrived
      | arrival new => exact .inr (.tail _ arrived)

/-! ## The values that exist once -/

/-- The value of a payload that exists once. -/
def single? (machine : Machine) : Payload → Option Ref
  | .none => some machine.noneValue
  | .bool value => some (machine.boolValue value)
  | _ => none

/-- The text of a payload that exists once. -/
def singleText? (machine : Machine) : Payload → Option Ref
  | .none => some machine.shared.noneText
  | .bool value => some (machine.shared.boolText value)
  | _ => none

/-- The values that exist once, and their texts. -/
def singles (machine : Machine) : List Ref :=
  [machine.noneValue, machine.boolValue false, machine.boolValue true, machine.shared.noneText,
    machine.shared.boolText false, machine.shared.boolText true]

/-- The box is not the machine's: it is older, or it came from elsewhere since. -/
def Foreign (machine : Machine) (events : List Event) (start : State) (ref : Ref) : Prop :=
  ref.index < machine.noneValue.index ∨ ref ∈ machine.arrivals events start

theorem shared_alloc (ids : BuiltinIds) (heap : Heap) :
    (Shared.alloc ids heap).1 = ⟨⟨heap.size⟩, ⟨heap.size + 1⟩, ⟨heap.size + 2⟩, ⟨heap.size + 3⟩,
      ⟨heap.size + 4⟩, ⟨heap.size + 5⟩⟩ := by
  simp only [Shared.alloc, Heap.alloc_ref, Heap.size_alloc]

theorem nodup_singles_of_assembled (h : machine.Assembled start) : machine.singles.Nodup := by
  obtain ⟨numTypes, ids, types, heap, sink, begun, setup, _, _, finished⟩ := h
  obtain ⟨built, _, rfl, rfl⟩ := Setup.finish_ok finished
  simp only [singles, noneValue, boolValue, shared_alloc, Shared.bool, Shared.boolText]
  simp

/-- When the machine is finished, it has one value for each payload that exists once. Others with
such a payload were there before. -/
theorem single?_of_assembled (h : machine.Assembled start) (held : start.heap.Holds ref box)
    (single : box.payload.isSingle = true) :
    machine.single? box.payload = some ref ∨ ref.index < machine.noneValue.index := by
  obtain ⟨numTypes, ids, types, heap, sink, begun, setup, _, _, finished⟩ := h
  obtain ⟨built, _, rfl, rfl⟩ := Setup.finish_ok finished
  simp only [Shared.alloc, Heap.holds_alloc_iff, Heap.size_alloc] at held
  rcases held with (((((old | ⟨rfl, rfl⟩) | ⟨rfl, rfl⟩) | ⟨rfl, rfl⟩) | ⟨_, rfl⟩) | ⟨_, rfl⟩) | ⟨_, rfl⟩
  · right
    have older := old.lt
    rwa [noneValue, shared_alloc]
  · exact .inl (by simp only [single?, noneValue, shared_alloc])
  · exact .inl (by simp only [single?, boolValue, Shared.bool, shared_alloc]; rfl)
  · exact .inl (by simp only [single?, boolValue, Shared.bool, shared_alloc]; rfl)
  · cases single
  · cases single
  · cases single

end Machine

/-! ## What is taken from the machine -/

/-- The methods that answer with a truth value. -/
def Builtin.isTest : Builtin → Bool
  | .common _ .equal => true
  | .array .isEmpty => true
  | .array .contains => true
  | _ => false

/-- A slot after a push has what it had, or the new element, or the filler if it is new. -/
theorem Buffer.slot_of_push {filler item slot : Ref} {buffer : Buffer} {index : Nat}
    (h : (buffer.push filler item).slots[index]? = some slot) :
    buffer.slots[index]? = some slot ∨ index = buffer.length ∧ slot = item ∨
      buffer.capacity ≤ index ∧ slot = filler := by
  simp only [push, Array.getElem?_setIfInBounds] at h
  split at h
  · rename_i place
    split at h
    · exact .inr (.inl ⟨place.symm, (Option.some.inj h).symm⟩)
    · cases h
  · unfold grown at h
    split at h
    · rw [Array.getElem?_append] at h
      split at h
      · exact .inl h
      · rename_i beyond
        rw [Array.getElem?_replicate] at h
        split at h
        · exact .inr (.inr ⟨Nat.not_lt.1 beyond, (Option.some.inj h).symm⟩)
        · cases h
    · exact .inl h

namespace Machine

/-- Whatever needs a value that exists once takes the machine's, `depth` calls deep in the state
`now`. A request from outside is answered, and a method run, at the depth of the state. -/
structure Produces (machine : Machine) (depth : Nat) (now : State) : Prop where
  none : (machine.engine depth).answer .none now = .ok machine.noneValue now
  bool : ∀ value, (machine.engine depth).answer (.bool value) now = .ok (machine.boolValue value) now
  /-- An index beyond a string or an array. -/
  element : ∀ value index count, (now.heap.get value).payload.count? = some count →
    Position.index? index count = .none → machine.element value index now = .ok machine.noneValue now
  /-- Slots that are filled beforehand. -/
  filled : ∀ length capacity, ∃ ref after,
    (machine.engine depth).answer (.filledArray length capacity) now = .ok ref after ∧
      after.heap.Holds ref
        ⟨machine.ids.array, .array ⟨.replicate (max capacity length) machine.noneValue, length⟩⟩
  /-- The one slot of an array of no elements. -/
  spare : ∃ ref after, (machine.engine depth).answer (.array []) now = .ok ref after ∧
    after.heap.Holds ref ⟨machine.ids.array, .array ⟨#[machine.noneValue], 0⟩⟩
  /-- A push, asked for or run as a method, and the slots that it adds. -/
  push : ∀ array item buffer, (now.heap.get array).payload = .array buffer → ∃ after changed,
    (machine.engine depth).answer (.push array item) now = .ok () after ∧
      (machine.engine (depth + 1)).invoke (.builtin (.array .push)) [array, item] now =
        .ok machine.noneValue after ∧
      (after.heap.get array).payload = .array changed ∧ ∀ index slot,
        changed.slots[index]? = some slot → buffer.slots[index]? = some slot ∨
          index = buffer.length ∧ slot = item ∨ buffer.capacity ≤ index ∧ slot = machine.noneValue
  /-- A text that is no integer. -/
  parseInt : ∀ value bytes rest radix, (now.heap.get value).payload = .string bytes →
    rest.length ≤ 1 → Arguments.optional .int (value :: rest) 1 now = .ok radix now →
      StringMethod.integer? radix (Utf8.decodeLossy bytes) = .none →
        (machine.engine (depth + 1)).invoke (.builtin (.string .parseInt)) (value :: rest) now =
          .ok machine.noneValue now
  /-- A text that is no number. -/
  parseFloat : ∀ value bytes, (now.heap.get value).payload = .string bytes →
    Double.ofText? (Utf8.decodeLossy bytes) = .none →
      (machine.engine (depth + 1)).invoke (.builtin (.string .parseFloat)) [value] now =
        .ok machine.noneValue now
  /-- Equality, `contains` and `isEmpty`. -/
  test : ∀ builtin args ref after, builtin.isTest = true →
    (machine.engine (depth + 1)).invoke (.builtin builtin) args now = .ok ref after →
      ∃ flag, ref = machine.boolValue flag
  /-- The text of any box with such a payload, wherever it comes from. -/
  toText : ∀ value type text, (now.heap.get value).payload.kind = .builtin type →
    machine.singleText? (now.heap.get value).payload = some text →
      (machine.engine (depth + 1)).invoke (.builtin (.common type .toText)) [value] now = .ok text now
  /-- The text of one whose type is the builtin one, found through the type. -/
  textOf : ∀ value type text, (now.heap.get value).payload.kind = .builtin type →
    (now.heap.get value).typeId = machine.ids.id type →
      machine.singleText? (now.heap.get value).payload = some text →
        (machine.engine (depth + 1)).textOf value now = .ok text now
  /-- Reading: the values are copies of literals, in which these values stand for themselves. -/
  read : ∀ text values after, machine.readValues text now = .ok (.ok values) after →
    ∃ literals, Literal.read text = .ok literals ∧ machine.SpellsAll after.heap literals values

section

variable {machine : Machine} {state now : State} {depth : Nat} {value ref : Ref} {args : List Ref}
  {builtin : Builtin}

/-- A builtin method that returns was run with the right number of arguments. -/
theorem runBuiltin_of_invoke {after : State}
    (h : (machine.engine (depth + 1)).invoke (.builtin builtin) args now = .ok ref after) :
    (machine.engine depth).runBuiltin builtin args now = .ok ref after := by
  by_cases count : builtin.arity.accepts args.length = true
  · rwa [invoke_builtin_succ count] at h
  · have refused : (machine.engine (depth + 1)).invoke (.builtin builtin) args =
        Exec.fail (.argumentCount builtin.name builtin.arity args.length) := if_neg count
    rw [refused] at h
    cases h

theorem element_beyond {index : Int64} {count : Nat}
    (counted : (now.heap.get value).payload.count? = some count)
    (beyond : Position.index? index count = .none) :
    machine.element value index now = .ok machine.noneValue now := by
  unfold element
  rw [Exec.bind_ok (Exec.payload_ok value now)]
  cases held : (now.heap.get value).payload with
  | string bytes =>
    rw [held] at counted
    cases counted
    have missing : Position.get? bytes index = .none := by rw [Position.get?, beyond]; rfl
    simp only [missing]
    rfl
  | array buffer =>
    rw [held] at counted
    cases counted
    have missing : Position.get? buffer.live index = .none := by rw [Position.get?, beyond]; rfl
    simp only [missing]
    rfl
  | _ =>
    rw [held] at counted
    cases counted

theorem boolValue_of_test {engine : Engine} {after : State} (test : builtin.isTest = true)
    (h : engine.runBuiltin builtin args now = .ok ref after) :
    ∃ flag, ref = engine.machine.boolValue flag := by
  cases builtin with
  | common type method =>
    cases method with
    | equal =>
      obtain ⟨flag, middle, _, same⟩ := Exec.of_bind_ok h
      cases same
      exact ⟨flag, rfl⟩
    | _ => cases test
  | string method => cases test
  | array method =>
    obtain ⟨buffer, middle, _, rest⟩ := Exec.of_bind_ok h
    cases method with
    | isEmpty =>
      cases rest
      exact ⟨_, rfl⟩
    | contains =>
      obtain ⟨target, middle, _, rest⟩ := Exec.of_bind_ok rest
      obtain ⟨flag, middle, _, same⟩ := Exec.of_bind_ok rest
      cases same
      exact ⟨flag, rfl⟩
    | _ => cases test

theorem toText_single {type : BuiltinType} {text : Ref}
    (kind : (now.heap.get value).payload.kind = .builtin type)
    (single : machine.singleText? (now.heap.get value).payload = some text) :
    (machine.engine (depth + 1)).invoke (.builtin (.common type .toText)) [value] now =
      .ok text now := by
  rw [invoke_builtin_succ rfl]
  cases held : (now.heap.get value).payload with
  | none =>
    rw [held] at kind single
    cases kind
    cases single
    exact Exec.bind_ok (Arguments.receiver_ok (by rw [held]; rfl))
  | bool flag =>
    rw [held] at kind single
    cases kind
    cases single
    exact Exec.bind_ok (Arguments.receiver_ok (by rw [held]; rfl))
  | _ =>
    rw [held] at single
    cases single

/-- The texts of the values that exist once are strings. -/
theorem Shares.text {heap : Heap} (shares : machine.Shares heap) {payload : Payload} {text : Ref}
    (single : machine.singleText? payload = some text) :
    ∃ bytes, (heap.get text).payload = .string bytes := by
  cases payload with
  | none =>
    cases single
    exact ⟨_, by rw [shares.noneText.get]⟩
  | bool flag =>
    cases single
    exact ⟨_, by rw [(shares.boolText flag).get]⟩
  | _ => cases single

theorem textOf_single (live : machine.Live now) {type : BuiltinType} {text : Ref}
    (kind : (now.heap.get value).payload.kind = .builtin type)
    (header : (now.heap.get value).typeId = machine.ids.id type)
    (single : machine.singleText? (now.heap.get value).payload = some text) :
    (machine.engine (depth + 1)).textOf value now = .ok text now := by
  obtain ⟨bytes, string⟩ := live.shares.text single
  unfold Engine.textOf
  rw [Exec.bind_ok (entryOf_builtin live.complete header), type.common?_entry]
  dsimp only
  rw [Exec.bind_ok (toText_single kind single), Exec.bind_ok (Exec.box_ok text now), string]
  rfl

theorem push_grows {array item : Ref} {buffer : Buffer}
    (held : (now.heap.get array).payload = .array buffer) : ∃ after changed,
      (machine.engine depth).answer (.push array item) now = .ok () after ∧
        (machine.engine (depth + 1)).invoke (.builtin (.array .push)) [array, item] now =
          .ok machine.noneValue after ∧
        (after.heap.get array).payload = .array changed ∧
          changed = buffer.push machine.noneValue item := by
  have inside := Heap.lt_size_of_array held
  have pushed := Exec.push_ok held machine item
  refine ⟨_, _, pushed, ?_, ?_, rfl⟩
  · rw [invoke_builtin_succ rfl]
    have receives : Arguments.receiver .array [array, item] now = .ok buffer now :=
      Arguments.receiver_ok (by rw [held]; rfl)
    refine (Exec.bind_ok receives).trans ?_
    refine (Exec.bind_ok (Arguments.given_zero now)).trans ?_
    refine (Exec.bind_ok (Arguments.given_one now)).trans ?_
    exact Exec.bind_ok pushed
  · rw [Heap.get_setPayload_self _ _ inside]

theorem parseInt_none {bytes : Bytes} {rest : List Ref} {radix : Option Int64}
    (held : (now.heap.get value).payload = .string bytes) (count : rest.length ≤ 1)
    (given : Arguments.optional .int (value :: rest) 1 now = .ok radix now)
    (fails : StringMethod.integer? radix (Utf8.decodeLossy bytes) = .none) :
    (machine.engine (depth + 1)).invoke (.builtin (.string .parseInt)) (value :: rest) now =
      .ok machine.noneValue now := by
  have accepted : (Builtin.string .parseInt).arity.accepts (value :: rest).length = true := by
    simp [Builtin.arity, StringMethod.arity, Arity.accepts, count]
  rw [invoke_builtin_succ accepted]
  have receives : Arguments.receiver .string (value :: rest) now = .ok bytes now :=
    Arguments.receiver_ok (by rw [held]; rfl)
  refine (Exec.bind_ok receives).trans ((Exec.bind_ok given).trans ?_)
  rw [fails]
  rfl

theorem parseFloat_none {bytes : Bytes} (held : (now.heap.get value).payload = .string bytes)
    (fails : Double.ofText? (Utf8.decodeLossy bytes) = .none) :
    (machine.engine (depth + 1)).invoke (.builtin (.string .parseFloat)) [value] now =
      .ok machine.noneValue now := by
  rw [invoke_builtin_succ rfl]
  have receives : Arguments.receiver .string [value] now = .ok bytes now :=
    Arguments.receiver_ok (by rw [held]; rfl)
  refine (Exec.bind_ok receives).trans ?_
  dsimp only
  rw [fails]
  rfl

/-- A live machine takes what exists once from where it is. -/
theorem Live.produces (live : machine.Live now) (depth : Nat) : machine.Produces depth now where
  none := rfl
  bool _ := rfl
  element _ _ _ counted beyond := element_beyond counted beyond
  filled _ _ := ⟨_, _, rfl, now.heap.holds_alloc _⟩
  spare := ⟨_, _, rfl, now.heap.holds_alloc _⟩
  push array item buffer held := by
    obtain ⟨after, changed, pushed, method, payload, same⟩ := push_grows held
    refine ⟨after, changed, pushed, method, payload, fun index slot found => ?_⟩
    rw [same] at found
    exact Buffer.slot_of_push found
  parseInt _ _ _ _ held count given fails := parseInt_none held count given fails
  parseFloat _ _ held fails := parseFloat_none held fails
  test _ _ _ _ test returned := boolValue_of_test test (runBuiltin_of_invoke returned)
  toText _ _ _ kind single := toText_single kind single
  textOf _ _ _ kind header single := textOf_single live kind header single
  read text values after h := by
    obtain ⟨literals, spelled⟩ := read_of_readValues h
    obtain ⟨others, later, ran, spells⟩ := readValues_of_read live.shares spelled
    rw [h] at ran
    cases ran
    exact ⟨literals, spelled, spells⟩

end

end Machine

/-! ## What is made anew -/

/-- The action gives a box that is new, and all others stay as they are. -/
def Exec.MakesNew (action : Exec Ref) (before : State) (box : Box) : Prop :=
  ∃ ref after, action before = .ok ref after ∧ after.heap.Holds ref box ∧
    (∀ old other, before.heap.Holds old other → old ≠ ref) ∧ before.heap.Extends after.heap

theorem Exec.makesNew_alloc (box : Box) (before : State) : (alloc box).MakesNew before box := by
  refine ⟨_, _, rfl, before.heap.holds_alloc box, ?_, Heap.extends_alloc before.heap box⟩
  rintro old other held rfl
  exact Nat.lt_irrefl _ held.lt

theorem Exec.MakesNew.of_eq {action other : Exec Ref} {before : State} {box : Box}
    (h : other.MakesNew before box) (same : action before = other before) :
    action.MakesNew before box := by
  rwa [MakesNew, same]

namespace Machine

/-- Whatever makes a box makes a new one, `depth` calls deep in the state `now`. -/
structure Makes (machine : Machine) (depth : Nat) (now : State) : Prop where
  int : ∀ value, ((machine.engine depth).answer (.int value)).MakesNew now
    ⟨machine.ids.int, .int value⟩
  float : ∀ value, ((machine.engine depth).answer (.float value)).MakesNew now
    ⟨machine.ids.float, .float value⟩
  string : ∀ bytes, ((machine.engine depth).answer (.string bytes)).MakesNew now
    ⟨machine.ids.string, .string bytes⟩
  array : ∀ items, ((machine.engine depth).answer (.array items)).MakesNew now
    ⟨machine.ids.array, .array (.ofItems machine.noneValue items)⟩
  filledArray : ∀ length capacity,
    ((machine.engine depth).answer (.filledArray length capacity)).MakesNew now
      ⟨machine.ids.array, .array (.filled machine.noneValue length capacity)⟩
  record : ∀ type fields, ((machine.engine depth).answer (.record type fields)).MakesNew now
    ⟨type, .record fields⟩
  /-- An element of a string. -/
  element : ∀ value bytes index byte, (now.heap.get value).payload = .string bytes →
    Position.get? bytes index = some byte →
      (machine.element value index).MakesNew now ⟨machine.ids.string, .string [byte]⟩
  /-- A part of a string, also if it is empty. -/
  stringPart : ∀ value bytes start stop, (now.heap.get value).payload = .string bytes →
    (machine.part value start stop).MakesNew now
      ⟨machine.ids.string, .string (Position.slice bytes start stop)⟩
  /-- A part of an array, also if it is empty. -/
  arrayPart : ∀ value buffer start stop, (now.heap.get value).payload = .array buffer →
    (machine.part value start stop).MakesNew now ⟨machine.ids.array,
      .array (.ofItems machine.noneValue (Position.slice buffer.live start stop))⟩
  concat : ∀ first second, (machine.concatStrings first second).MakesNew now
    ⟨machine.ids.string, .string (first ++ second)⟩

theorem makes (machine : Machine) (depth : Nat) (now : State) : machine.Makes depth now where
  int _ := Exec.makesNew_alloc _ now
  float _ := Exec.makesNew_alloc _ now
  string _ := Exec.makesNew_alloc _ now
  array _ := Exec.makesNew_alloc _ now
  filledArray _ _ := Exec.makesNew_alloc _ now
  record _ _ := Exec.makesNew_alloc _ now
  element value bytes index byte held found := by
    refine (Exec.makesNew_alloc _ now).of_eq ?_
    unfold Machine.element
    rw [Exec.bind_ok (Exec.payload_ok value now), held]
    simp only [found]
    rfl
  stringPart value bytes start stop held := by
    refine (Exec.makesNew_alloc _ now).of_eq ?_
    unfold part
    rw [Exec.bind_ok (Exec.payload_ok value now), held]
    rfl
  arrayPart value buffer start stop held := by
    refine (Exec.makesNew_alloc _ now).of_eq ?_
    unfold part
    rw [Exec.bind_ok (Exec.payload_ok value now), held]
    rfl
  concat _ _ := Exec.makesNew_alloc _ now

/-! ## Whatever happens -/

/-- What is single on the machine and what is new, after the events. -/
structure KeepsIdentity (machine : Machine) (start : State) (events : List Event) : Prop where
  /-- The values that exist once are six, and they are on the heap. -/
  nodup : machine.singles.Nodup
  shares : machine.Shares (machine.undergoes events start).heap
  /-- No other box has a payload like theirs, except foreign ones. -/
  single : ∀ ref box, (machine.undergoes events start).heap.Holds ref box →
    box.payload.isSingle = true →
      machine.single? box.payload = some ref ∨ machine.Foreign events start ref
  /-- No box is lost, whatever happens next, and none changes its type. -/
  persists : ∀ later ref box, (machine.undergoes events start).heap.Holds ref box →
    ∃ new, (machine.undergoes (events ++ later) start).heap.Holds ref new ∧ new.typeId = box.typeId
  /-- From here on, also in the middle of methods. -/
  produces : ∀ depth now, (machine.undergoes events start).heap.Persists now.heap →
    machine.Produces depth now
  makes : ∀ depth now, (machine.undergoes events start).heap.Persists now.heap →
    machine.Makes depth now

variable {machine : Machine} {start : State}

theorem undergoes_append (machine : Machine) (events later : List Event) (state : State) :
    machine.undergoes (events ++ later) state =
      machine.undergoes later (machine.undergoes events state) := by
  induction events generalizing state with
  | nil => rfl
  | cons event events ih => exact ih _

/-- **What exists once is never made again, and everything else is made anew.** From the moment a
machine is finished, whatever is done with it in whatever order and however it ends, and whatever
boxes come from elsewhere: `None` and the truth values that it produces are always the same three
boxes, and their texts always the same three strings. A box that it makes is none of those that are
there. No box is lost, and none ever changes its type. -/
theorem keepsIdentity (assembled : machine.Assembled start) (events : List Event) :
    machine.KeepsIdentity start events := by
  have live := live_of_assembled assembled
  have persists := machine.persists_undergoes events start
  constructor
  case nodup => exact nodup_singles_of_assembled assembled
  case shares => exact live.shares.persists persists
  case single =>
    intro ref box held single
    rcases machine.single_of_undergoes events start held single with old | arrived
    · rcases single?_of_assembled assembled old single with own | older
      · exact .inl own
      · exact .inr (.inl older)
    · exact .inr (.inr arrived)
  case persists =>
    intro later ref box held
    rw [undergoes_append]
    obtain ⟨new, kept, becomes⟩ := machine.persists_undergoes later _ ref box held
    exact ⟨new, kept, becomes.typeId⟩
  case produces =>
    intro depth now further
    exact Live.produces ⟨live.complete, live.shares.persists (persists.trans further)⟩ depth
  case makes => exact fun depth now _ => machine.makes depth now

/-- A `None` comes from elsewhere, an array is made of it and the machine's own, and a text is read. -/
def mixedEvents : List Event :=
  [.operation (.request .none), .arrival ⟨bare.ids.none, .none⟩,
    .operation (.request (.array [⟨0⟩, ⟨6⟩])), .operation (.read "[None, true]".toList)]

theorem keepsIdentity_mixed : bare.Assembled bareState ∧
    bare.arrivals mixedEvents bareState = [⟨6⟩] ∧ bare.KeepsIdentity bareState mixedEvents :=
  ⟨assembled_bare, rfl, keepsIdentity assembled_bare mixedEvents⟩

end Machine

end BoxedValues
