import BoxedValues.Proofs.Heap.Growing
import BoxedValues.Proofs.Machine.Singletons
import BoxedValues.Proofs.Machine.Sparing

/-!
# Appending to an array

The storage of an array on a machine, from one operation to the next: elements are appended to it in
one of four ways, items are stored into its slots, and whatever else is done leaves it alone.

* `Machine.perform_of_appends` and `Machine.perform_set`: the steps, which all end with a result;
* `Machine.Works.writeAll?`: the run, as the writes to the buffer that the array had;
* `Machine.array_growth`: **the law of growth** for any such run, at any moment of it.
-/

set_option autoImplicit false

namespace BoxedValues

namespace Machine

variable {machine : Machine} {start now : State} {array item : Ref} {buffer grown : Buffer}
  {writes : List Write} {op : Operation}

/-! ## One operation -/

/-- The ways to append an item to an array: the request, and the method that is run directly, sent
to the array, or called through the type of arrays. -/
inductive Appends (machine : Machine) (now : State) (array item : Ref) : Operation → Prop where
  | request : Appends machine now array item (.request (.push array item))
  | method : Appends machine now array item (.method (.builtin (.array .push)) [array, item])
  | call : (now.heap.get array).typeId = machine.ids.array →
      Appends machine now array item (.request (.call ArrayMethod.push.slot [array, item]))
  | invoke : Appends machine now array item
      (.request (.invoke machine.ids.array ArrayMethod.push.slot [array, item]))

/-- The method is found through the type of arrays. -/
theorem sendAs_push (complete : machine.Complete) (depth : Nat) :
    (machine.engine depth).sendAs machine.ids.array ArrayMethod.push.slot [array, item] now =
      (machine.engine depth).invoke (.builtin (.array .push)) [array, item] now := by
  have inSlot : machine.method? machine.ids.array ArrayMethod.push.slot =
      some (.builtin (.array .push)) :=
    method?_eq_some_iff.2 ⟨_, complete .array, BuiltinType.method?_array .push⟩
  rcases Engine.sendAs_apply (machine.engine depth) ArrayMethod.push.slot now machine.ids.array
    [array, item] with ⟨method, found, same⟩ | ⟨missing, _⟩
  · cases inSlot.symm.trans found
    exact same
  · cases inSlot.symm.trans missing

/-- **Whichever way an item is appended**, the array has it behind its elements. -/
theorem perform_of_appends (complete : machine.Complete)
    (held : (now.heap.get array).payload = .array buffer)
    (appends : machine.Appends now array item op) :
    ∃ answer after, machine.perform op now = .ok answer after ∧
      (after.heap.get array).payload = .array (buffer.push machine.noneValue item) := by
  obtain ⟨depth, deep⟩ := machine.exists_depth now
  obtain ⟨after, _, requested, run, changed, rfl⟩ :=
    @push_grows machine now depth array item buffer held
  rw [← deep] at run
  cases appends with
  | request => exact ⟨_, after, requested, changed⟩
  | method => exact ⟨_, after, run, changed⟩
  | call header =>
    have sent := Engine.send_eq_sendAs (machine.engine (machine.depth now)) ArrayMethod.push.slot
      now array [item]
    rw [header, sendAs_push complete, run] at sent
    exact ⟨_, after, Exec.attempt_ok sent, changed⟩
  | invoke => exact ⟨_, after, Exec.attempt_ok ((sendAs_push complete _).trans run), changed⟩

/-- A store into a slot that the array has. -/
theorem perform_set (held : (now.heap.get array).payload = .array buffer) {index : Nat}
    (inside : index < buffer.capacity) (item : Ref) :
    ∃ changed after, buffer.set? index item = some changed ∧
      machine.perform (.request (.set array index item)) now = .ok () after ∧
      (after.heap.get array).payload = .array changed := by
  have present : array.index < now.heap.size := Heap.lt_size_of_array held
  cases stored : buffer.set? index item with
  | none => exact absurd inside (Nat.not_lt.2 (Buffer.set?_eq_none_iff.1 stored))
  | some changed =>
    refine ⟨changed, { now with heap := now.heap.setPayload array (.array changed) }, rfl, ?_, ?_⟩
    · exact Exec.setSlot_ok held stored
    · rw [Heap.get_setPayload_self _ _ present]

/-- What does not name an array does not change it. -/
theorem get_of_staysBuiltin (complete : machine.Complete)
    (held : (now.heap.get array).payload = .array buffer) (stays : machine.StaysBuiltin now op)
    (unnamed : array ∉ machine.named now op) :
    ((machine.perform op).last now).heap.get array = now.heap.get array := by
  have present : array.index < now.heap.size := Heap.lt_size_of_array held
  exact ((keepsBut_perform complete stays).holds array _ (Heap.holds_get present) unnamed).get

/-! ## Any number of operations -/

/-- What is written to an array, from the first to the last, by operations that append to it, store
into slots that it has, or leave it alone. -/
inductive Works (machine : Machine) (array : Ref) (start : State) : List Write → State → Prop where
  | start : Works machine array start [] start
  | push {writes : List Write} {now : State} {item : Ref} {op : Operation} :
      Works machine array start writes now → machine.Appends now array item op →
        Works machine array start (writes ++ [.push item]) ((machine.perform op).last now)
  | set {writes : List Write} {now : State} {buffer : Buffer} {index : Nat} {item : Ref} :
      Works machine array start writes now → (now.heap.get array).payload = .array buffer →
        index < buffer.capacity → Works machine array start (writes ++ [.set index item])
          ((machine.perform (.request (.set array index item))).last now)
  | other {writes : List Write} {now : State} {op : Operation} :
      Works machine array start writes now →
        ((machine.perform op).last now).heap.get array = now.heap.get array →
          Works machine array start writes ((machine.perform op).last now)

/-- The writes to the array are writes to its buffer. -/
theorem Works.writeAll? (complete : machine.Complete)
    (held : (start.heap.get array).payload = .array buffer)
    (works : machine.Works array start writes now) :
    ∃ grown, (now.heap.get array).payload = .array grown ∧
      buffer.writeAll? machine.noneValue writes = some grown := by
  induction works with
  | start => exact ⟨buffer, held, rfl⟩
  | push _ appends ih =>
    obtain ⟨grown, there, written⟩ := ih
    obtain ⟨answer, after, ran, changed⟩ := perform_of_appends complete there appends
    refine ⟨_, by rw [Exec.last_ok ran, changed], ?_⟩
    rw [Buffer.writeAll?_concat, written]
    rfl
  | set _ has inside ih =>
    obtain ⟨grown, there, written⟩ := ih
    cases has.symm.trans there
    obtain ⟨changed, after, stored, ran, holds⟩ := perform_set there inside _
    refine ⟨changed, by rw [Exec.last_ok ran, holds], ?_⟩
    rw [Buffer.writeAll?_concat, written]
    exact stored
  | other _ same ih =>
    obtain ⟨grown, there, written⟩ := ih
    exact ⟨grown, by rw [same, there], written⟩

/-- What has become of an array by the writes, and how it goes on. -/
structure Grows (machine : Machine) (array : Ref) (buffer : Buffer) (writes : List Write)
    (now : State) (grown : Buffer) : Prop where
  held : (now.heap.get array).payload = .array grown
  law : Buffer.Growth machine.noneValue buffer writes grown
  /-- The next element is appended. -/
  append : ∀ item op, machine.Appends now array item op → ∃ answer after,
    machine.perform op now = .ok answer after ∧
      (after.heap.get array).payload = .array (grown.push machine.noneValue item)
  /-- The next item is stored. -/
  store : ∀ index item, index < grown.capacity → ∃ changed after,
    grown.set? index item = some changed ∧
      machine.perform (.request (.set array index item)) now = .ok () after ∧
      (after.heap.get array).payload = .array changed
  /-- Whatever neither names the array nor runs registered methods leaves it alone. -/
  read : ∀ op, machine.StaysBuiltin now op → array ∉ machine.named now op →
    ((machine.perform op).last now).heap.get array = now.heap.get array

/-- **The law of growth.** Whatever is appended to an array and stored into its slots, in whatever
order and with whatever in between: its length is the number of elements that it had and that were
appended, and its capacity is doubled as few times as these need. Elements keep their positions,
those that were appended follow in order, and slots that are new hold `None` until something is
written there. -/
theorem array_growth (complete : machine.Complete)
    (held : (start.heap.get array).payload = .array buffer)
    (room : buffer.length ≤ buffer.capacity) (works : machine.Works array start writes now) :
    ∃ grown, machine.Grows array buffer writes now grown := by
  obtain ⟨grown, there, written⟩ := works.writeAll? complete held
  refine ⟨grown, there, Buffer.growth room written, ?_, ?_, ?_⟩
  · exact fun item op appends => perform_of_appends complete there appends
  · exact fun index item inside => perform_set there inside item
  · exact fun op stays unnamed => get_of_staysBuiltin complete there stays unnamed

/-- On the machine with builtin types only, an array without slots. -/
def slotlessState : State :=
  { bareState with heap := ⟨bareState.heap.boxes ++ #[⟨bare.ids.array, .array ⟨#[], 0⟩⟩]⟩ }

/-- Three elements are appended to it in three ways, the first is replaced and a part is taken in
between: it has four slots, of which the last holds `None`. -/
theorem array_growth_slotless : ∃ now grown,
    bare.Works ⟨6⟩ slotlessState [.push ⟨1⟩, .set 0 ⟨2⟩, .push ⟨3⟩, .push ⟨4⟩] now ∧
    (now.heap.get ⟨6⟩).payload = .array grown ∧ grown.length = 3 ∧ grown.capacity = 4 ∧
    grown.slots[0]? = some ⟨2⟩ ∧ grown.slots[1]? = some ⟨3⟩ ∧ grown.slots[2]? = some ⟨4⟩ ∧
    grown.slots[3]? = some bare.noneValue := by
  have complete : bare.Complete := (live_of_assembled assembled_bare).complete
  have first : bare.Works ⟨6⟩ slotlessState ([.push ⟨1⟩] ++ [.set 0 ⟨2⟩]) _ :=
    .set (.push .start .request) (show _ = Payload.array ⟨#[⟨1⟩], 1⟩ from rfl) Nat.zero_lt_one
  have second : bare.Works ⟨6⟩ slotlessState ([.push ⟨1⟩, .set 0 ⟨2⟩] ++ [.push ⟨3⟩]) _ :=
    .push (.other first (show ((bare.perform (.part ⟨6⟩ 0 1)).last _).heap.get _ = _ from rfl))
      (.call rfl)
  have works : bare.Works ⟨6⟩ slotlessState ([.push ⟨1⟩, .set 0 ⟨2⟩, .push ⟨3⟩] ++ [.push ⟨4⟩]) _ :=
    .push second .method
  obtain ⟨grown, grows⟩ := array_growth complete rfl (Nat.le_refl 0) works
  have law := grows.law
  have length : grown.length = 3 := law.length
  have capacity : grown.capacity = 4 := by
    have capacities : Doubled 0 3 grown.capacity := length ▸ law.capacity
    obtain ⟨times, least, doubled⟩ := capacities.doubled (by decide)
    have two : IsLeast {times | 3 ≤ max 0 1 * 2 ^ times} 2 := by
      refine ⟨by decide, fun times enough => ?_⟩
      match times with
      | 0 | 1 => exact absurd enough (by decide)
      | times + 2 => exact Nat.le_add_left 2 times
    rw [doubled, least.unique two]
    rfl
  refine ⟨_, grown, works, grows.held, length, capacity, ?_, ?_, ?_, ?_⟩
  · exact law.stored [.push ⟨1⟩] 0 ⟨2⟩ [.push ⟨3⟩, .push ⟨4⟩] rfl (by simp [Write.Sets])
      (.inl Nat.zero_lt_one)
  · exact law.pushed [.push ⟨1⟩, .set 0 ⟨2⟩] ⟨3⟩ [.push ⟨4⟩] rfl (by simp [Write.Sets])
  · exact law.pushed [.push ⟨1⟩, .set 0 ⟨2⟩, .push ⟨3⟩] ⟨4⟩ [] rfl (by simp [Write.Sets])
  · exact law.filled 3 (by omega) (Nat.zero_le 3) (by omega) (by simp [Write.Sets])

end Machine

end BoxedValues
