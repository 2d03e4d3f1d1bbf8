import BoxedValues.Proofs.Equality.Deciding
import BoxedValues.Proofs.Machine.Operations

/-!
# Two ways to compare values

Values are compared by `areEqual`, which looks at the references and the types before it sends for a
method, or by a call of the method itself, which looks at what the two boxes hold. The short cuts of
`areEqual` change nothing, but for a NaN that is compared with itself.

* `Engine.arraysEqual_self`: an array that is compared with itself is equal, whatever it holds, because
  each element is met as the same box twice and no method of it runs;
* `Engine.equal_of_kind_ne`: values of different kinds are different for the method, too;
* `Machine.areEqual_of_ne`: for two boxes of one type both ways run the same method;
* `Machine.equal_slot_agrees`: **both ways end alike, with the same verdict or the same fault**.
-/

set_option autoImplicit false

namespace BoxedValues

/-- The two are one box, which holds a NaN. -/
def Heap.SameNaN (heap : Heap) (a b : Ref) : Prop :=
  a = b ∧ ∃ x, (heap.get a).payload = .float x ∧ x.isNaN = true

/-- A payload of a builtin type without elements equals itself, unless it is a NaN. -/
theorem Payload.equals_self {p : Payload} {type : BuiltinType} (kind : p.kind = .builtin type)
    (scalar : ∀ buffer, p ≠ .array buffer) (number : ∀ x, p = .float x → x.isNaN = false) :
    p.equals p = true := by
  cases p with
  | float x => rw [equals, Double.ieeeEq_self, number x rfl, Bool.not_false]
  | array buffer => exact absurd rfl (scalar buffer)
  | record fields => cases kind
  | _ => simp [equals]

/-! ## Values compared with themselves -/

namespace Exec

variable {α κ : Type} [DecidableEq κ] {list : MarkList κ} {key : κ} {body : Exec α} {state : State}

/-- A body that only looks at the state leaves it as it was, marks included. -/
theorem marking_looks (lawful : list.Lawful) {result : α}
    (ran : ∀ state, body state = .ok result state) :
    marking list key body state = .ok none state ∨
      marking list key body state = .ok (some result) state := by
  unfold marking
  by_cases marked : key ∈ list.get state.marks
  · exact .inl (if_pos marked)
  · right
    rw [if_neg marked, ran]
    simp only [lawful.get_set, List.erase_cons_head, lawful.set_set, lawful.set_get]

end Exec

namespace Engine

variable (engine : Engine) {a b : Ref} {state : State} {type : BuiltinType}

theorem areEqual_self (a : Ref) (state : State) : engine.areEqual a a state = .ok true state := by
  unfold areEqual
  rw [if_pos rfl]
  rfl

/-- No element is sent a message. -/
theorem equalPairs_self (items : List Ref) (state : State) :
    engine.equalPairs (items.zip items) state = .ok true state := by
  induction items with
  | nil => rfl
  | cons item items ih =>
    rw [List.zip_cons_cons, equalPairs, Exec.bind_ok (engine.areEqual_self item state), if_pos rfl]
    exact ih

/-- An array equals itself, whether it is being compared with itself already or not. -/
theorem arraysEqual_self (array : Ref) (items : List Ref) (state : State) :
    engine.arraysEqual array array items items state = .ok true state := by
  have body (state : State) : (if items.length ≠ items.length then return false
      else engine.equalPairs (items.zip items)) state = .ok true state := by
    rw [if_neg (not_not.2 rfl)]
    exact engine.equalPairs_self items state
  unfold arraysEqual
  rcases Exec.marking_looks Exec.lawful_equalityMarks body with marked | ran
  · rw [Exec.bind_ok marked]
    rfl
  · rw [Exec.bind_ok ran]
    rfl

/-- Values of different kinds are different. -/
theorem equal_of_kind_ne (kind : (state.heap.get a).payload.kind = .builtin type)
    (ne : (state.heap.get a).payload.kind ≠ (state.heap.get b).payload.kind) :
    engine.equal type [a, b] state = .ok false state := by
  rw [engine.equal_of_not_arrays kind fun buffer buffer' held held' => ne (by rw [held, held']; rfl),
    Payload.equals_of_kind_ne ne]

/-- A value equals itself for the method of its type, unless it is a NaN. -/
theorem equal_self (kind : (state.heap.get a).payload.kind = .builtin type)
    (number : ¬state.heap.SameNaN a a) : engine.equal type [a, a] state = .ok true state := by
  by_cases array : ∃ buffer, (state.heap.get a).payload = .array buffer
  · obtain ⟨buffer, held⟩ := array
    rw [held] at kind
    cases kind
    rw [engine.equal_arrays held held, engine.arraysEqual_self]
  · have scalar (buffer : Buffer) : (state.heap.get a).payload ≠ .array buffer :=
      fun held => array ⟨buffer, held⟩
    rw [engine.equal_of_not_arrays kind fun buffer _ held => absurd held (scalar buffer)]
    rw [Payload.equals_self kind scalar fun x held => ?_]
    rw [← Bool.not_eq_true]
    exact fun isNaN => number ⟨rfl, x, held, isNaN⟩

/-- A NaN does not equal itself for the method of its type. -/
theorem equal_nan {x : Double} (held : (state.heap.get a).payload = .float x)
    (isNaN : x.isNaN = true) : engine.equal .float [a, a] state = .ok false state := by
  rw [engine.equal_of_not_arrays (by rw [held]; rfl) (by rw [held]; simp), held, Payload.equals,
    Double.ieeeEq_self, isNaN, Bool.not_true]

end Engine

/-! ## The two ways -/

namespace Machine

variable {machine : Machine} {state : State} {a b : Ref} {depth : Nat} {type : BuiltinType}

/-- The method for equality of a builtin type, called directly. -/
theorem send_equal (complete : machine.Complete)
    (typeId : (state.heap.get a).typeId = machine.ids.id type) :
    (machine.engine (depth + 1)).send CommonMethod.equal.slot [a, b] state =
      ((machine.engine depth).equal type [a, b] >>= fun verdict =>
        pure (machine.boolValue verdict)) state := by
  exact send_builtin complete typeId (type.common?_entry .equal) rfl

/-- Two boxes of one type are compared by the method that a direct call runs. -/
theorem areEqual_of_ne (live : machine.Live state) (ne : a ≠ b)
    (typeId : (state.heap.get a).typeId = machine.ids.id type)
    (typeId' : (state.heap.get b).typeId = machine.ids.id type) :
    (machine.engine (depth + 1)).areEqual a b state =
      (machine.engine depth).equal type [a, b] state := by
  unfold Engine.areEqual
  rw [if_neg ne]
  refine (Exec.bind_ok (Exec.typeId_ok a state)).trans ?_
  refine (Exec.bind_ok (Exec.typeId_ok b state)).trans ?_
  rw [typeId, typeId', if_neg (not_not.2 rfl)]
  refine (Exec.bind_ok (entryOf_builtin live.complete typeId)).trans ?_
  rw [type.common?_entry]
  have run : (machine.engine (depth + 1)).invoke (.builtin (.common type .equal)) [a, b] =
      ((machine.engine depth).equal type [a, b] >>= fun verdict =>
        pure (machine.boolValue verdict)) := invoke_common rfl
  cases ended : (machine.engine depth).equal type [a, b] state with
  | ok verdict after =>
    -- Whatever the elements' methods did, the two truth values are still what they were.
    have persists : state.heap.Persists after.heap :=
      Engine.keeps_equal frame_persists _ (machine.keeps_invoke frame_persists depth) type [a, b]
        state after (.inl ⟨verdict, ended⟩)
    have held := ((live.shares.persists persists).bool verdict).get
    have ran : (machine.engine (depth + 1)).invoke (.builtin (.common type .equal)) [a, b] state =
        .ok (machine.boolValue verdict) after := by
      rw [run, Exec.bind_ok ended]
      rfl
    refine (Exec.bind_ok ran).trans ?_
    refine (Exec.bind_ok (Exec.box_ok _ after)).trans ?_
    rw [boolValue, held]
    rfl
  | error fault after =>
    refine Exec.bind_error ?_
    rw [run, Exec.bind_error ended]

/-- Two boxes of different types are different without a call. -/
theorem areEqual_of_typeId_ne {engine : Engine}
    (ne : (state.heap.get a).typeId ≠ (state.heap.get b).typeId) :
    engine.areEqual a b state = .ok false state := by
  unfold Engine.areEqual
  rw [if_neg fun same => ne (by rw [same])]
  refine (Exec.bind_ok (Exec.typeId_ok a state)).trans ?_
  refine (Exec.bind_ok (Exec.typeId_ok b state)).trans ?_
  rw [if_pos ne]
  rfl

/-- A call of the method for equality and a comparison end alike in this state: with the verdict as a
value in the one case and by itself in the other, or with the same fault, and in the same state. -/
structure SlotAgrees (machine : Machine) (state : State) (a b : Ref) (call : List Ref → Exec Ref)
    (compare : Ref → Ref → Exec Bool) : Prop where
  alike : ¬state.heap.SameNaN a b →
    call [a, b] state = (compare a b >>= fun verdict => pure (machine.boolValue verdict)) state
  /-- A NaN is the same box as itself, but not the same number. -/
  nan : state.heap.SameNaN a b → compare a b state = .ok true state ∧
    call [a, b] state = .ok (machine.boolValue false) state
  /-- An array equals itself for the method, whatever it holds. -/
  array : ∀ buffer, (state.heap.get a).payload = .array buffer →
    call [a, a] state = .ok (machine.boolValue true) state
  /-- The value of a verdict is the shared one. -/
  verdict : ∀ verdict after, compare a b state = .ok verdict after →
    after.heap.Holds (machine.boolValue verdict) ⟨machine.ids.bool, .bool verdict⟩

/-- The two ways at any depth of nesting, also within other methods and other comparisons. -/
theorem slotAgrees_engine (live : machine.Live state) (first : machine.IsBuiltin (state.heap.get a))
    (second : machine.IsBuiltin (state.heap.get b)) (depth : Nat) :
    machine.SlotAgrees state a b ((machine.engine (depth + 1)).send CommonMethod.equal.slot)
      (machine.engine (depth + 1)).areEqual := by
  obtain ⟨type, kind, typeId⟩ := first
  obtain ⟨type', kind', typeId'⟩ := second
  have called (other : Ref) :
      (machine.engine (depth + 1)).send CommonMethod.equal.slot [a, other] state =
        ((machine.engine depth).equal type [a, other] >>= fun verdict =>
          pure (machine.boolValue verdict)) state :=
    send_equal live.complete typeId
  refine ⟨fun number => ?alike, ?nan, fun buffer held => ?array, fun verdict after ran => ?verdict⟩
  case alike =>
    rw [called]
    by_cases same : a = b
    · subst same
      rw [Exec.bind_ok ((machine.engine depth).equal_self kind number),
        Exec.bind_ok (Engine.areEqual_self _ a state)]
    · by_cases types : (state.heap.get a).typeId = (state.heap.get b).typeId
      · exact Exec.bind_congr_left (areEqual_of_ne live same typeId (types ▸ typeId)).symm
      · have kinds : (state.heap.get a).payload.kind ≠ (state.heap.get b).payload.kind := by
          intro equal
          rw [kind, kind', Kind.builtin.injEq] at equal
          exact types (by rw [typeId, typeId', equal])
        rw [Exec.bind_ok ((machine.engine depth).equal_of_kind_ne kind kinds),
          Exec.bind_ok (areEqual_of_typeId_ne types)]
  case nan =>
    rintro ⟨rfl, x, held, isNaN⟩
    rw [held] at kind
    cases kind
    refine ⟨Engine.areEqual_self _ a state, ?_⟩
    rw [called, Exec.bind_ok ((machine.engine depth).equal_nan held isNaN)]
    rfl
  case array =>
    have number : ¬state.heap.SameNaN a a := by
      rintro ⟨_, x, float, _⟩
      rw [held] at float
      cases float
    rw [called, Exec.bind_ok ((machine.engine depth).equal_self kind number)]
    rfl
  case verdict =>
    have persists : state.heap.Persists after.heap :=
      Engine.keeps_areEqual frame_persists _ (machine.keeps_invoke frame_persists (depth + 1)) a b
        state after (.inl ⟨verdict, ran⟩)
    exact (live.shares.persists persists).bool verdict

/-- **The short cuts of a comparison agree with the method for equality.** For two boxes that carry
the types of their kinds, whatever their elements are and however those are compared, a comparison and
a direct call end with the same verdict or the same fault, in the same state. The one exception is a
NaN that is compared with itself. -/
theorem equal_slot_agrees (live : machine.Live state) (first : machine.IsBuiltin (state.heap.get a))
    (second : machine.IsBuiltin (state.heap.get b)) :
    machine.SlotAgrees state a b (machine.send CommonMethod.equal.slot) machine.areEqual ∧
      ∀ depth, machine.SlotAgrees state a b
        ((machine.engine (depth + 1)).send CommonMethod.equal.slot)
        (machine.engine (depth + 1)).areEqual := by
  refine ⟨?_, slotAgrees_engine live first second⟩
  obtain ⟨depth, deep⟩ := machine.exists_depth state
  have inside := slotAgrees_engine live first second depth
  have called (args : List Ref) : machine.send CommonMethod.equal.slot args state =
      (machine.engine (depth + 1)).send CommonMethod.equal.slot args state := by
    rw [← deep]
    rfl
  have compared : machine.areEqual a b state = (machine.engine (depth + 1)).areEqual a b state := by
    rw [← deep]
    rfl
  constructor
  · intro number
    rw [called, inside.alike number]
    exact Exec.bind_congr_left compared.symm
  · intro same
    rw [called, compared]
    exact inside.nan same
  · intro buffer held
    rw [called]
    exact inside.array buffer held
  · intro verdict after ran
    rw [compared] at ran
    exact inside.verdict verdict after ran

/-- On the machine with builtin types only: a NaN, two records of a type that is not registered, and two
arrays that contain the NaN, one of the records and themselves. -/
def nanState : State :=
  let array (items : Array Ref) : Box := ⟨bare.ids.array, .array ⟨items, 3⟩⟩
  { bareState with heap := ⟨bareState.heap.boxes ++ #[⟨bare.ids.float, .float ⟨0x7FF8000000000000⟩⟩,
    ⟨⟨6⟩, .record []⟩, ⟨⟨6⟩, .record []⟩, array #[⟨6⟩, ⟨7⟩, ⟨9⟩], array #[⟨6⟩, ⟨8⟩, ⟨10⟩]]⟩ }

/-- The NaN is told from itself by the method only. Each of the arrays equals itself for both, and to
compare the two fails for both, as their records cannot be compared. -/
theorem equal_slot_agrees_nan :
    (bare.areEqual ⟨6⟩ ⟨6⟩ nanState = .ok true nanState ∧
      bare.send CommonMethod.equal.slot [⟨6⟩, ⟨6⟩] nanState = .ok (bare.boolValue false) nanState) ∧
    bare.send CommonMethod.equal.slot [⟨9⟩, ⟨9⟩] nanState = .ok (bare.boolValue true) nanState ∧
    bare.areEqual ⟨9⟩ ⟨10⟩ nanState = .error (.error (.beyondTable ⟨6⟩ 6)) nanState ∧
    bare.send CommonMethod.equal.slot [⟨9⟩, ⟨10⟩] nanState =
      .error (.error (.beyondTable ⟨6⟩ 6)) nanState := by
  have nan : bare.IsBuiltin (nanState.heap.get ⟨6⟩) := ⟨.float, rfl, rfl⟩
  have array : bare.IsBuiltin (nanState.heap.get ⟨9⟩) := ⟨.array, rfl, rfl⟩
  have other : bare.IsBuiltin (nanState.heap.get ⟨10⟩) := ⟨.array, rfl, rfl⟩
  have live : bare.Live nanState := live_bare_append _
  have agrees := (equal_slot_agrees live array other).1
  have apart : ¬nanState.heap.SameNaN ⟨9⟩ ⟨10⟩ := fun same => absurd same.1 (by decide)
  have failed : bare.areEqual ⟨9⟩ ⟨10⟩ nanState =
      .error (.error (.beyondTable ⟨6⟩ 6)) nanState := rfl
  refine ⟨(equal_slot_agrees live nan nan).1.nan ⟨rfl, _, rfl, by decide⟩,
    agrees.array _ rfl, failed, ?_⟩
  rw [agrees.alike apart, Exec.bind_error failed]

end Machine

end BoxedValues
