import BoxedValues.Proofs.Equality.Deciding
import BoxedValues.Proofs.Hash.Unfolding

/-!
# Machines hash unfoldings

The hash that a machine gives for a value is the digest of the value's unfolding, as long as no
registered method takes part (`Machine.digests`). What follows for values that are found equal is
`hashes_of_equal`: **their hashes are made of the same octets exactly if the walks through them are
in step**. Without cycles they are, and the hashes agree (`hash_eq_of_acyclic`). Rings of different
lengths are not, and get different hashes (`hashes_differ_of_rings`).
-/

set_option autoImplicit false

namespace BoxedValues

namespace Machine

variable {machine : Machine} {base : Heap} {state : State} {a b value : Ref} {depth : Nat}

/-- Hashes on a machine that nests calls less than `depth` deep are digests of unfoldings, if
`base` has no more boxes than `depth` allows. -/
def Digests (machine : Machine) (base : Heap) (depth : Nat) : Prop :=
  ∀ {state value}, machine.Shares state.heap → base.Carries state.heap machine.Hashable value →
    unmarked base.refs state.marks.hash < depth →
      ((machine.engine depth).hashOf value).Gives state fun hash _ =>
        hash = (base.fold Unfolding.walk state.marks.hash value).digest

section

variable (digests : machine.Digests base depth) (shares : machine.Shares state.heap)

include digests shares

theorem gives_hashes (values : List Ref)
    (carries : ∀ value ∈ values, base.Carries state.heap machine.Hashable value)
    (room : unmarked base.refs state.marks.hash < depth) :
    ((machine.engine depth).hashes values).Gives state fun hashes _ =>
      hashes = values.map fun value =>
        (base.fold Unfolding.walk state.marks.hash value).digest := by
  apply Exec.gives_mapM values
  intro value mem after grows
  rw [← grows.marks]
  refine digests (shares.persists grows.heap.persists) ((carries value mem).extends grows.heap) ?_
  rw [grows.marks]
  exact room

variable (carries : base.Carries state.heap machine.Hashable value)
  (room : unmarked base.refs state.marks.hash < depth + 1)

include carries room

theorem gives_hashElements {buffer : Buffer} (held : (base.get value).payload = .array buffer) :
    ((machine.engine depth).hashElements value buffer.live).Gives state fun hash _ =>
      hash = (base.fold Unfolding.walk state.marks.hash value).digest := by
  unfold Engine.hashElements
  rw [Heap.fold_array held]
  by_cases inside : value ∈ state.marks.hash
  · rw [if_pos inside]
    apply (Exec.gives_marking_of_mem inside).bind
    intro hashes after _ none
    rw [none]
    exact Exec.gives_pure rfl
  · have smaller := unmarked_cons_lt (Heap.mem_refs_of_array held) inside
    have marked : machine.Shares { state with
        marks := Exec.hashMarks.set (value :: state.marks.hash) state.marks }.heap := shares
    have body := gives_hashes digests marked buffer.live
      (fun item mem => carries.of_mem (by rwa [Heap.items_of_array held])) (by
        show unmarked base.refs (value :: state.marks.hash) < depth
        omega)
    rw [if_neg inside]
    apply (Exec.gives_marking Exec.lawful_hashMarks inside body).bind
    intro hashes after _ h
    obtain ⟨values, rfl, same⟩ := h
    refine Exec.gives_pure ?_
    show Hash.ofElements values = (Unfolding.node _).digest
    rw [same, Unfolding.digest, Unfolding.digests_eq_map, List.map_map]
    rfl

/-- The methods of the builtin types. -/
theorem gives_hash {type : BuiltinType} (kind : (base.get value).payload.kind = .builtin type) :
    ((machine.engine depth).hash type [value]).Gives state fun hash _ =>
      hash = (base.fold Unfolding.walk state.marks.hash value).digest := by
  have got := carries.self.1
  have scalar : (∀ buffer, (base.get value).payload ≠ .array buffer) →
      base.fold Unfolding.walk state.marks.hash value =
        Unfolding.ofLeaf value (base.get value).payload := Heap.fold_leaf
  cases held : (base.get value).payload with
  | array buffer =>
    rw [held] at kind
    cases kind
    refine Exec.gives_bind_ok (Arguments.receiver_ok (by rw [got, held]; rfl)) ?_
    exact Exec.gives_bind_ok (Arguments.given_zero state)
      (gives_hashElements digests shares carries room held)
  | record fields =>
    rw [held] at kind
    cases kind
  | _ =>
    rw [held] at kind scalar
    cases kind
    refine Exec.gives_bind_ok (Arguments.receiver_ok (by rw [got, held]; rfl)) ?_
    rw [scalar fun _ => Payload.noConfusion]
    exact Exec.gives_pure rfl

end

/-- Hashes that nest one level deeper. -/
theorem digests_succ (complete : machine.Complete) (digests : machine.Digests base depth) :
    machine.Digests base (depth + 1) := by
  intro state value shares carries room
  obtain ⟨got, ordinary⟩ := carries.self
  obtain ⟨entry, found, answer⟩ := ordinary.entry complete (.head [])
  unfold Engine.hashOf
  refine Exec.gives_bind_ok (entryOf_ok (by rw [got]; exact found)) ?_
  rw [answer]
  cases kind : (base.get value).payload.kind with
  | builtin type =>
    have run : ((machine.engine (depth + 1)).invoke (.builtin (.common type .hash)) [value]).Gives
        state fun ref heap => heap.get ref =
          ⟨machine.ids.int, .int (base.fold Unfolding.walk state.marks.hash value).digest⟩ := by
      rw [invoke_common rfl]
      apply (gives_hash digests shares carries room kind).bind
      intro hash after _ h
      rw [← h]
      exact (Exec.gives_alloc _ after).mono fun _ _ => Heap.Holds.get
    apply run.bind
    intro ref after _ held
    refine Exec.gives_bind_ok (Exec.box_ok ref after) ?_
    rw [held]
    exact Exec.gives_pure rfl
  | record =>
    refine Exec.gives_pure ?_
    cases held : (base.get value).payload with
    | record fields =>
      rw [Heap.fold_leaf (by simp [held]), held]
      rfl
    | _ =>
      rw [held] at kind
      cases kind

theorem digests (complete : machine.Complete) (base : Heap) (depth : Nat) :
    machine.Digests base depth := by
  induction depth with
  | zero => exact fun _ _ room => absurd room (Nat.not_lt_zero _)
  | succ depth ih => exact digests_succ complete ih

/-! ## Hashing values from outside -/

/-- Hashing a value returns the digest of its unfolding on any heap that it comes from. -/
theorem gives_hashOf (live : machine.Live state) (fits : base.size ≤ state.heap.size)
    (carries : base.Carries state.heap machine.Hashable value) :
    (machine.hashOf value).Gives state fun hash _ =>
      hash = (base.fold Unfolding.walk state.marks.hash value).digest := by
  apply gives_act
  exact digests live.complete base _ live.shares carries (machine.unmarked_refs_lt_depth fits _)

/-- What is found equal has equal contents. -/
theorem bisimilar_of_areEqual {after : State} (live : machine.Live state)
    (idle : state.marks = .none) (first : state.heap.Within machine.Plain a)
    (second : state.heap.Within machine.Plain b)
    (equal : machine.areEqual a b state = .ok true after) : state.heap.Bisimilar a b := by
  have noMarks : state.marks.equality = [] := by
    rw [idle]
    rfl
  have found := findsEqual_iff_bisimilar live noMarks (first.mono comparable_of_plain)
    (second.mono comparable_of_plain)
  exact found.1 ⟨after, equal⟩

/-- Values with equal contents are found equal, and both their hashes are returned after that. -/
theorem hashes_are_digests (live : machine.Live state) (idle : state.marks = .none)
    (first : state.heap.Within machine.Plain a) (second : state.heap.Within machine.Plain b)
    (bisimilar : state.heap.Bisimilar a b) :
    ∃ after later last, machine.areEqual a b state = .ok true after ∧
      machine.hashOf a after = .ok (state.heap.unfolding a).digest later ∧
        machine.hashOf b later = .ok (state.heap.unfolding b).digest last := by
  have noMarks : state.marks.equality = [] := by
    rw [idle]
    rfl
  obtain ⟨verdict, after, ran, grows, same⟩ := gives_bisimilar live noMarks
    (first.mono comparable_of_plain) (second.mono comparable_of_plain)
  rw [same.2 bisimilar] at ran
  have carries := (first.mono hashable_of_plain).carries.extends grows.heap
  obtain ⟨hash, later, ranFirst, growsFirst, rfl⟩ :=
    gives_hashOf (live.extends grows.heap) grows.heap.size_le carries
  have grown := grows.trans growsFirst
  have carries' := (second.mono hashable_of_plain).carries.extends grown.heap
  obtain ⟨hash', last, ranSecond, _, rfl⟩ :=
    gives_hashOf (live.extends grown.heap) grown.heap.size_le carries'
  rw [grows.marks, idle] at ranFirst
  rw [grown.marks, idle] at ranSecond
  exact ⟨after, later, last, ran, ranFirst, ranSecond⟩

/-- **What the hashes of two values that were found equal are made of.** Both are returned, each as
the digest of the value's unfolding. The unfoldings are equal exactly if the walks through the
values are in step, and then the hashes are equal. -/
theorem hashes_of_equal {after : State} (live : machine.Live state) (idle : state.marks = .none)
    (first : state.heap.Within machine.Plain a) (second : state.heap.Within machine.Plain b)
    (equal : machine.areEqual a b state = .ok true after) :
    ∃ hash hash' later last, machine.hashOf a after = .ok hash later ∧
      machine.hashOf b later = .ok hash' last ∧ hash = (state.heap.unfolding a).digest ∧
        hash' = (state.heap.unfolding b).digest ∧
          (state.heap.unfolding a = state.heap.unfolding b ↔ state.heap.InStep a b) ∧
            (state.heap.InStep a b → hash = hash') := by
  have bisimilar := bisimilar_of_areEqual live idle first second equal
  have inStep := Heap.unfolding_eq_iff_inStep bisimilar
  obtain ⟨_, later, last, ran, ranFirst, ranSecond⟩ :=
    hashes_are_digests live idle first second bisimilar
  rw [equal] at ran
  cases ran
  exact ⟨_, _, later, last, ranFirst, ranSecond, rfl, rfl, inStep,
    fun h => congrArg Unfolding.digest (inStep.2 h)⟩

/-- **Values without cycles that are found equal have one hash.** -/
theorem hash_eq_of_acyclic {after : State} (live : machine.Live state)
    (idle : state.marks = .none) (first : state.heap.Within machine.Plain a)
    (second : state.heap.Within machine.Plain b) (acyclic : state.heap.Acyclic a)
    (acyclic' : state.heap.Acyclic b) (equal : machine.areEqual a b state = .ok true after) :
    ∃ hash later last, machine.hashOf a after = .ok hash later ∧
      machine.hashOf b later = .ok hash last := by
  have bisimilar := bisimilar_of_areEqual live idle first second equal
  have unfoldings := (Heap.unfolding_eq_iff_inStep bisimilar).2
    (Heap.inStep_of_acyclic acyclic acyclic')
  obtain ⟨_, later, last, ran, ranFirst, ranSecond⟩ :=
    hashes_are_digests live idle first second bisimilar
  rw [equal] at ran
  cases ran
  rw [← unfoldings] at ranSecond
  exact ⟨_, later, last, ranFirst, ranSecond⟩

/-! ## Rings -/

theorem plain_rings {value : Ref} (h : value ∈ rings) : ringState.heap.Within bare.Plain value :=
  (within_rings h).mono fun _ builtin => builtin.ordinary _

theorem bisimilar_rings {a b : Ref} (first : a ∈ rings) (second : b ∈ rings) :
    ringState.heap.Bisimilar a b := by
  refine ⟨fun x y => x ∈ rings ∧ y ∈ rings, ?_, first, second⟩
  rintro x y ⟨hx, hy⟩
  obtain ⟨item, isRing, held⟩ := holds_rings hx
  obtain ⟨other, isRing', held'⟩ := holds_rings hy
  right
  rw [held.get, held'.get]
  exact .array (.cons ⟨isRing, isRing'⟩ .nil)

theorem unfolding_ring_of_one : ringState.heap.unfolding ⟨6⟩ = .node [.cut] := by
  have held : (ringState.heap.get ⟨6⟩).payload = .array ⟨#[⟨6⟩], 1⟩ := rfl
  simp [Heap.unfolding, Heap.fold_array held, Buffer.live, Unfolding.walk]

theorem unfolding_ring_of_two {value : Ref} (h : value = ⟨7⟩ ∨ value = ⟨8⟩) :
    ringState.heap.unfolding value = .node [.node [.cut]] := by
  have held : (ringState.heap.get ⟨7⟩).payload = .array ⟨#[⟨8⟩], 1⟩ := rfl
  have held' : (ringState.heap.get ⟨8⟩).payload = .array ⟨#[⟨7⟩], 1⟩ := rfl
  rcases h with rfl | rfl
  · simp [Heap.unfolding, Heap.fold_array held, Heap.fold_array held', Buffer.live, Unfolding.walk]
  · simp [Heap.unfolding, Heap.fold_array held, Heap.fold_array held', Buffer.live, Unfolding.walk]

/-- Two rings of two arrays are in step. -/
theorem hashes_of_equal_rings : ∃ after hash later last,
    bare.areEqual ⟨7⟩ ⟨8⟩ ringState = .ok true after ∧ bare.hashOf ⟨7⟩ after = .ok hash later ∧
      bare.hashOf ⟨8⟩ later = .ok hash last := by
  have first : ringState.heap.Within bare.Plain ⟨7⟩ := plain_rings (by decide)
  have second : ringState.heap.Within bare.Plain ⟨8⟩ := plain_rings (by decide)
  obtain ⟨after, _, _, equal, _⟩ := hashes_are_digests live_ringState rfl first second
    (bisimilar_rings (by decide) (by decide))
  obtain ⟨hash, hash', later, last, ran, ran', _, _, inStep, same⟩ :=
    hashes_of_equal live_ringState rfl first second equal
  have unfoldings := (unfolding_ring_of_two (.inl rfl)).trans (unfolding_ring_of_two (.inr rfl)).symm
  rw [← same (inStep.1 unfoldings)] at ran'
  exact ⟨after, hash, later, last, equal, ran, ran'⟩

/-- An array that contains itself equals one of two that contain each other, but its hash is
another one. -/
theorem hashes_differ_of_rings : ∃ after hash hash' later last,
    bare.Assembled bareState ∧ bare.Runs bareState ringState ∧ ringState.marks = .none ∧
      ringState.heap.Within bare.Plain ⟨6⟩ ∧ ringState.heap.Within bare.Plain ⟨7⟩ ∧
        bare.areEqual ⟨6⟩ ⟨7⟩ ringState = .ok true after ∧
          bare.hashOf ⟨6⟩ after = .ok hash later ∧ bare.hashOf ⟨7⟩ later = .ok hash' last ∧
            hash ≠ hash' := by
  have first : ringState.heap.Within bare.Plain ⟨6⟩ := plain_rings (by decide)
  have second : ringState.heap.Within bare.Plain ⟨7⟩ := plain_rings (by decide)
  obtain ⟨after, later, last, equal, ran, ran'⟩ := hashes_are_digests live_ringState rfl first second
    (bisimilar_rings (by decide) (by decide))
  refine ⟨after, _, _, later, last, assembled_bare, runs_ringState, rfl, first, second, equal, ran,
    ran', ?_⟩
  rw [unfolding_ring_of_one, unfolding_ring_of_two (.inl rfl)]
  decide +kernel

end Machine

end BoxedValues
