import BoxedValues.Proofs.Equality.Agreement
import BoxedValues.Proofs.Machine.Giving

/-!
# Machines decide equality of contents

Comparing two values on a machine is a walk through the graphs of both (`Heap.agree`), with the
pairs of arrays that are being compared as its assumptions. It follows that comparing decides
bisimilarity as long as no registered method takes part.

* `Machine.decides`: a machine that nests calls deeply enough finds what the walk finds;
* `areEqual_decides_bisimilarity`: **comparing two values returns, and says that they are equal
  exactly if their contents are**; the answers form an equivalence relation.
-/

set_option autoImplicit false

namespace BoxedValues

theorem Payload.equals_none (p : Payload) : Payload.equals .none p = p.isNone := by
  cases p <;> rfl

theorem Payload.equals_bool (value : Bool) (p : Payload) :
    Payload.equals (.bool value) p = (p.bool? == some value) := by
  cases p with
  | bool other => exact Bool.beq_comm
  | _ => rfl

theorem Payload.equals_int (value : Int64) (p : Payload) :
    Payload.equals (.int value) p = (p.int? == some value) := by
  cases p with
  | int other =>
    show (value == other) = (other == value)
    exact Bool.beq_comm
  | _ => rfl

theorem Payload.equals_float (value : Double) (p : Payload) :
    Payload.equals (.float value) p = p.float?.any (value.ieeeEq ·) := by
  cases p <;> rfl

theorem Payload.equals_string (bytes : Bytes) (p : Payload) :
    Payload.equals (.string bytes) p = (p.string? == some bytes) := by
  cases p with
  | string other =>
    show (bytes == other) = (other == bytes)
    exact Bool.beq_comm
  | _ => rfl

theorem Payload.equals_record (fields : List Ref) (p : Payload) :
    Payload.equals (.record fields) p = false := by
  cases p <;> rfl

/-- Payloads of different kinds are different. -/
theorem Payload.equals_of_kind_ne {p q : Payload} (h : p.kind ≠ q.kind) : p.equals q = false := by
  unfold equals
  split
  · exact absurd rfl h
  · exact absurd rfl h
  · exact absurd rfl h
  · exact absurd rfl h
  · exact absurd rfl h
  · rfl

namespace Engine

variable (engine : Engine) {state : State} {a b : Ref} {type : BuiltinType}

/-- A value without elements is compared by looking at what the other one holds. -/
theorem compared_ok {α : Type} {accessor : Accessor α} {content : α} (verdict : α → Payload → Bool)
    (found : accessor.get? (state.heap.get a).payload = some content) :
    (do
      let value ← Arguments.receiver accessor [a, b]
      return verdict value (← Exec.payload (← Arguments.given [a, b] 1))) state =
        .ok (verdict content (state.heap.get b).payload) state := by
  rw [Exec.bind_ok (Arguments.receiver_ok found), Exec.bind_ok (Arguments.given_one state),
    Exec.bind_ok (Exec.payload_ok b state)]
  rfl

/-- Two arrays are compared by their elements. -/
theorem equal_arrays {buffer other : Buffer} (held : (state.heap.get a).payload = .array buffer)
    (held' : (state.heap.get b).payload = .array other) :
    engine.equal .array [a, b] state = engine.arraysEqual a b buffer.live other.live state := by
  refine (Exec.bind_ok (Arguments.receiver_ok (by rw [held]; rfl))).trans ?_
  refine (Exec.bind_ok (Arguments.given_one state)).trans ?_
  refine (Exec.bind_ok (Exec.payload_ok b state)).trans ?_
  rw [held']
  exact Exec.bind_ok (Arguments.given_zero state)

/-- What the methods of the builtin types say of two boxes unless both hold an array. -/
theorem equal_of_not_arrays (kind : (state.heap.get a).payload.kind = .builtin type)
    (scalar : ∀ buffer buffer', (state.heap.get a).payload = .array buffer →
      (state.heap.get b).payload ≠ .array buffer') :
    engine.equal type [a, b] state =
      .ok ((state.heap.get a).payload.equals (state.heap.get b).payload) state := by
  cases held : (state.heap.get a).payload with
  | none =>
    rw [held] at kind
    cases kind
    rw [Payload.equals_none]
    exact compared_ok (fun _ payload => payload.isNone) (by rw [held]; rfl)
  | bool value =>
    rw [held] at kind
    cases kind
    rw [Payload.equals_bool]
    exact compared_ok (fun value payload => payload.bool? == some value) (by rw [held]; rfl)
  | int value =>
    rw [held] at kind
    cases kind
    rw [Payload.equals_int]
    exact compared_ok (fun value payload => payload.int? == some value) (by rw [held]; rfl)
  | float value =>
    rw [held] at kind
    cases kind
    rw [Payload.equals_float]
    exact compared_ok (fun (value : Double) payload => payload.float?.any (value.ieeeEq ·))
      (by rw [held]; rfl)
  | string bytes =>
    rw [held] at kind
    cases kind
    rw [Payload.equals_string]
    exact compared_ok (fun value payload => payload.string? == some value) (by rw [held]; rfl)
  | array buffer =>
    rw [held] at kind
    cases kind
    refine (Exec.bind_ok (Arguments.receiver_ok (by rw [held]; rfl))).trans ?_
    refine (Exec.bind_ok (Arguments.given_one state)).trans ?_
    refine (Exec.bind_ok (Exec.payload_ok b state)).trans ?_
    cases held' : (state.heap.get b).payload with
    | array buffer' => exact absurd held' (scalar buffer buffer' held)
    | _ => rfl
  | record fields =>
    rw [held] at kind
    cases kind

end Engine

namespace Machine

variable {machine : Machine} {base : Heap} {state : State} {a b : Ref} {depth : Nat}
  {assumed : List (Ref × Ref)}

/-- Comparisons on a machine that nests calls less than `depth` deep find what the walk through
`base` finds, if that has no more pairs than `depth` allows. -/
def Decides (machine : Machine) (base : Heap) (depth : Nat) : Prop :=
  ∀ {state a b}, machine.Shares state.heap → base.Carries state.heap machine.Comparable a →
    base.Carries state.heap machine.Comparable b →
      unmarked base.pairs state.marks.equality < depth →
        ((machine.engine depth).areEqual a b).Gives state fun verdict _ =>
          verdict = base.agree state.marks.equality a b

section

variable (decides : machine.Decides base depth) (shares : machine.Shares state.heap)

include decides shares

theorem gives_equalPairs (pairs : List (Ref × Ref))
    (carries : ∀ pair ∈ pairs, base.Carries state.heap machine.Comparable pair.1 ∧
      base.Carries state.heap machine.Comparable pair.2)
    (room : unmarked base.pairs state.marks.equality < depth) :
    ((machine.engine depth).equalPairs pairs).Gives state fun verdict _ =>
      verdict = pairs.all fun pair => base.agree state.marks.equality pair.1 pair.2 := by
  induction pairs generalizing state with
  | nil => exact Exec.gives_pure rfl
  | cons pair rest ih =>
    obtain ⟨first, second⟩ := carries pair (.head rest)
    apply (decides shares first second room).bind
    intro verdict after grows same
    rw [List.all_cons, ← same]
    cases verdict with
    | false => exact Exec.gives_pure rfl
    | true =>
      have further := ih (shares.persists grows.heap.persists)
        (fun pair mem => (carries pair (.tail _ mem)).imp (·.extends grows.heap)
          (·.extends grows.heap)) (by rw [grows.marks]; exact room)
      rw [grows.marks] at further
      exact further

variable (first : base.Carries state.heap machine.Comparable a)
  (second : base.Carries state.heap machine.Comparable b)
  (room : unmarked base.pairs state.marks.equality < depth + 1) (ne : a ≠ b)

include first second room ne

theorem gives_arraysEqual {buffer other : Buffer} (held : (base.get a).payload = .array buffer)
    (held' : (base.get b).payload = .array other) :
    ((machine.engine depth).arraysEqual a b buffer.live other.live).Gives state fun verdict _ =>
      verdict = base.agree state.marks.equality a b := by
  unfold Engine.arraysEqual
  rw [Heap.agree_arrays ne held held']
  by_cases inside : (a, b) ∈ state.marks.equality
  · apply (Exec.gives_marking_of_mem inside).bind
    intro verdict after _ none
    refine Exec.gives_pure ?_
    simp only [none, inside, Option.getD_none, decide_true, Bool.true_or]
  · have smaller := unmarked_cons_lt (Heap.mem_pairs_of_arrays held held') inside
    have body : Exec.Gives (if buffer.live.length ≠ other.live.length then return false
          else (machine.engine depth).equalPairs (buffer.live.zip other.live))
        { state with marks := Exec.equalityMarks.set ((a, b) :: state.marks.equality) state.marks }
        fun verdict _ => verdict = (decide (buffer.live.length = other.live.length) &&
          (buffer.live.zip other.live).all fun pair =>
            base.agree ((a, b) :: state.marks.equality) pair.1 pair.2) := by
      by_cases lengths : buffer.live.length = other.live.length
      · have marked : machine.Shares { state with
            marks := Exec.equalityMarks.set ((a, b) :: state.marks.equality) state.marks }.heap := shares
        rw [if_neg (not_not.2 lengths), decide_eq_true lengths, Bool.true_and]
        apply gives_equalPairs decides marked
        · intro pair mem
          obtain ⟨mem, mem'⟩ := List.of_mem_zip mem
          rw [← Heap.items_of_array held] at mem
          rw [← Heap.items_of_array held'] at mem'
          exact ⟨first.of_mem mem, second.of_mem mem'⟩
        · show unmarked base.pairs ((a, b) :: state.marks.equality) < depth
          omega
      · rw [if_pos lengths, decide_eq_false lengths, Bool.false_and]
        exact Exec.gives_pure rfl
    apply (Exec.gives_marking Exec.lawful_equalityMarks inside body).bind
    intro verdict after _ h
    obtain ⟨value, rfl, same⟩ := h
    refine Exec.gives_pure ?_
    simp only [same, inside, Option.getD_some, decide_false, Bool.false_or]

/-- The methods of the builtin types. -/
theorem gives_equal {type : BuiltinType} (kind : (base.get a).payload.kind = .builtin type) :
    ((machine.engine depth).equal type [a, b]).Gives state fun verdict _ =>
      verdict = base.agree state.marks.equality a b := by
  have got := first.self.1
  have got' := second.self.1
  by_cases arrays : ∃ buffer other, (base.get a).payload = .array buffer ∧
      (base.get b).payload = .array other
  · obtain ⟨buffer, other, held, held'⟩ := arrays
    rw [held] at kind
    cases kind
    obtain ⟨verdict, after, ran, ended⟩ :=
      gives_arraysEqual decides shares first second room ne held held'
    rw [← got] at held
    rw [← got'] at held'
    exact ⟨verdict, after, (Engine.equal_arrays _ held held').trans ran, ended⟩
  · have others : ∀ buffer other, (base.get a).payload = .array buffer →
        (base.get b).payload ≠ .array other :=
      fun buffer other held held' => arrays ⟨buffer, other, held, held'⟩
    refine Exec.gives_of_ok (Engine.equal_of_not_arrays _ (by rwa [got]) (by rwa [got, got'])) ?_
    rw [Heap.agree_others ne others, got, got']

end

/-- A record equals nothing but itself. -/
theorem agree_of_record (ne : a ≠ b) (kind : (base.get a).payload.kind = .record) :
    base.agree assumed a b = false := by
  cases held : (base.get a).payload with
  | record fields => rw [Heap.agree_others ne (by simp [held]), held, Payload.equals_record]
  | _ =>
    rw [held] at kind
    cases kind

/-- Comparisons that nest one level deeper. -/
theorem decides_succ (complete : machine.Complete) (decides : machine.Decides base depth) :
    machine.Decides base (depth + 1) := by
  intro state a b shares first second room
  unfold Engine.areEqual
  by_cases same : a = b
  · rw [if_pos same]
    exact Exec.gives_pure (by rw [same, Heap.agree_self])
  rw [if_neg same]
  obtain ⟨got, ordinary⟩ := first.self
  obtain ⟨got', ordinary'⟩ := second.self
  refine Exec.gives_bind_ok (Exec.typeId_ok a state) (Exec.gives_bind_ok (Exec.typeId_ok b state) ?_)
  rw [got, got']
  by_cases types : (base.get a).typeId = (base.get b).typeId
  · have kinds := ordinary.kind_eq complete ordinary' (.head []) types
    obtain ⟨entry, found, answer⟩ := ordinary.entry complete (.head [])
    rw [if_neg (not_not.2 types)]
    refine Exec.gives_bind_ok (entryOf_ok (by rw [got]; exact found)) ?_
    rw [answer]
    cases kind : (base.get a).payload.kind with
    | builtin type =>
      have run : ((machine.engine (depth + 1)).invoke (.builtin (.common type .equal)) [a, b]).Gives
          state fun ref heap => heap.get ref =
            ⟨machine.ids.bool, .bool (base.agree state.marks.equality a b)⟩ := by
        rw [invoke_common rfl]
        refine (gives_equal decides shares first second room same kind).bind
          fun verdict after grows h => Exec.gives_pure ?_
        rw [← h]
        exact ((shares.persists grows.heap.persists).bool verdict).get
      apply run.bind
      intro ref after _ held
      refine Exec.gives_bind_ok (Exec.box_ok ref after) ?_
      rw [held]
      exact Exec.gives_pure rfl
    | record => exact Exec.gives_pure (agree_of_record same kind).symm
  · rw [if_pos types]
    refine Exec.gives_pure ?_
    cases kind : (base.get a).payload.kind with
    | builtin type =>
      have kinds : (base.get a).payload.kind ≠ (base.get b).payload.kind := by
        intro equal
        rw [kind] at equal
        exact types ((ordinary.typeId_eq kind).trans (ordinary'.typeId_eq equal.symm).symm)
      rw [Heap.agree_others same fun buffer other held held' => kinds (by rw [held, held']; rfl),
        Payload.equals_of_kind_ne kinds]
    | record => exact (agree_of_record same kind).symm

theorem decides (complete : machine.Complete) (base : Heap) (depth : Nat) :
    machine.Decides base depth := by
  induction depth with
  | zero => exact fun _ _ _ room => absurd room (Nat.not_lt_zero _)
  | succ depth ih => exact decides_succ complete ih

/-! ## Comparing values from outside -/

/-- Comparing values returns what the walk finds on any heap that the values come from. -/
theorem gives_areEqual (live : machine.Live state) (fits : base.size ≤ state.heap.size)
    (first : base.Carries state.heap machine.Comparable a)
    (second : base.Carries state.heap machine.Comparable b) :
    (machine.areEqual a b).Gives state fun verdict _ =>
      verdict = base.agree state.marks.equality a b := by
  apply gives_act
  exact decides live.complete base _ live.shares first second
    (machine.unmarked_pairs_lt_depth fits _)

/-- Without assumptions, the answer is whether the contents are equal. -/
theorem gives_bisimilar (live : machine.Live state) (idle : state.marks.equality = [])
    (first : state.heap.Within machine.Comparable a)
    (second : state.heap.Within machine.Comparable b) :
    (machine.areEqual a b).Gives state fun verdict _ =>
      (verdict = true ↔ state.heap.Bisimilar a b) := by
  refine (gives_areEqual live (Nat.le_refl _) first.carries second.carries).mono ?_
  rintro verdict _ rfl
  rw [idle, Heap.agree_nil_iff_bisimilar]

/-- The machine finds two values equal. -/
def FindsEqual (machine : Machine) (state : State) (a b : Ref) : Prop :=
  ∃ after, machine.areEqual a b state = .ok true after

theorem findsEqual_iff_bisimilar (live : machine.Live state) (idle : state.marks.equality = [])
    (first : state.heap.Within machine.Comparable a)
    (second : state.heap.Within machine.Comparable b) :
    machine.FindsEqual state a b ↔ state.heap.Bisimilar a b := by
  obtain ⟨verdict, after, ran, _, same⟩ := gives_bisimilar live idle first second
  rw [← same]
  constructor
  · rintro ⟨later, h⟩
    rw [ran] at h
    cases h
    rfl
  · intro h
    exact ⟨after, by rw [ran, h]⟩

/-- **Comparing values decides whether their contents are equal.** It returns for any two values
that are compared without a registered method, with `true` exactly if some bisimulation relates
them, and being found equal is an equivalence relation on these values. -/
theorem areEqual_decides_bisimilarity (live : machine.Live state)
    (idle : state.marks.equality = []) :
    (∀ a b, state.heap.Within machine.Comparable a → state.heap.Within machine.Comparable b →
      ∃ verdict after, machine.areEqual a b state = .ok verdict after ∧
        (verdict = true ↔ state.heap.Bisimilar a b)) ∧
    Equivalence fun a b : { value // state.heap.Within machine.Comparable value } =>
      machine.FindsEqual state a.val b.val := by
  have found (a b : { value // state.heap.Within machine.Comparable value }) :=
    findsEqual_iff_bisimilar live idle a.property b.property
  constructor
  · intro a b first second
    obtain ⟨verdict, after, ran, _, same⟩ := gives_bisimilar live idle first second
    exact ⟨verdict, after, ran, same⟩
  · constructor
    · intro a
      exact (found a a).2 (.refl state.heap a.val)
    · intro a b h
      exact (found b a).2 ((found a b).1 h).symm
    · intro a b c h h'
      exact (found a c).2 (((found a b).1 h).trans ((found b c).1 h'))

/-- An array that contains itself is compared with one of two that contain each other. -/
theorem areEqual_decides_bisimilarity_rings :
    ∃ verdict after, bare.areEqual ⟨6⟩ ⟨7⟩ ringState = .ok verdict after ∧
      (verdict = true ↔ ringState.heap.Bisimilar ⟨6⟩ ⟨7⟩) := by
  refine (areEqual_decides_bisimilarity live_ringState rfl).1 ⟨6⟩ ⟨7⟩ ?_ ?_
  · exact (within_rings (by decide)).mono fun _ h => h.ordinary _
  · exact (within_rings (by decide)).mono fun _ h => h.ordinary _

end Machine

end BoxedValues
