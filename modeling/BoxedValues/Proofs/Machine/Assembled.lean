import BoxedValues.Proofs.Heap.Graph

/-!
# Assembled machines

What every machine has from the moment it is finished: its builtin types are registered, and the
values that exist once are on the heap (`Machine.Live`).

* `live_of_assembled`: a finished machine has both, whatever other types were registered;
* `Live.runs`: it keeps both, whatever happens.

A box is ordinary for some common methods (`Machine.Ordinary`) if no registered method can answer
in their place: it is of the builtin type of its kind, or a record of a type without them.
-/

set_option autoImplicit false

namespace BoxedValues

theorem BuiltinType.common?_entry (type : BuiltinType) (method : CommonMethod) :
    type.entry.common? method = some (.builtin (.common type method)) := by
  cases method <;> rfl

namespace Machine

/-- The builtin types are registered under their identities. -/
def Complete (machine : Machine) : Prop :=
  ∀ type, machine.table.entry (machine.ids.id type) = .ok type.entry

/-- The values that exist once are on the heap. -/
structure Shares (machine : Machine) (heap : Heap) : Prop where
  none : heap.Holds machine.shared.none ⟨machine.ids.none, .none⟩
  bool : ∀ value, heap.Holds (machine.shared.bool value) ⟨machine.ids.bool, .bool value⟩
  noneText : heap.Holds machine.shared.noneText
    ⟨machine.ids.string, .string (Utf8.ofString "None")⟩
  boolText : ∀ value, heap.Holds (machine.shared.boolText value)
    ⟨machine.ids.string, .string (Utf8.ofString (if value then "true" else "false"))⟩

/-- The machine is complete, and its shared values are there. -/
structure Live (machine : Machine) (state : State) : Prop where
  complete : machine.Complete
  shares : machine.Shares state.heap

variable {machine : Machine}

theorem Shares.persists {before after : Heap} (h : machine.Shares before)
    (persists : before.Persists after) : machine.Shares after where
  none := persists.holds h.none rfl
  bool value := persists.holds (h.bool value) rfl
  noneText := persists.holds h.noneText rfl
  boolText value := persists.holds (h.boolText value) rfl

/-! ## Assembly -/

/-- How a machine and its first state come about: the identities of the builtin types are checked,
other types are registered, and then the builtin ones. There may be boxes from before. -/
def Assembled (machine : Machine) (state : State) : Prop :=
  ∃ numTypes ids types heap sink begun registered,
    Setup.start numTypes ids = .ok begun ∧ begun.registerAll types = .ok registered ∧
      registered.finish heap sink = .ok (machine, state)

end Machine

namespace Setup

variable {setup changed : Setup} {id : TypeId} {entry : Entry} {types : List (TypeId × Entry)}

/-- Two steps of an assembly succeed if the first does and then the second. -/
theorem bind_eq_ok_iff {α β : Type} {first : Except MachineError α} {next : α → Except MachineError β}
    {result : β} : (first >>= next) = .ok result ↔
      ∃ middle, first = .ok middle ∧ next middle = .ok result := by
  cases first <;> simp [bind, Except.bind]

theorem register_eq_ok_iff : setup.register id entry = .ok changed ↔
    ∃ table, setup.table.register id entry = .ok table ∧ changed = { setup with table } := by
  rw [register, bind_eq_ok_iff]
  simp only [pure, Except.pure, Except.ok.injEq, eq_comm]

theorem registerAll_cons {type : TypeId × Entry} (h : setup.registerAll (type :: types) = .ok changed) :
    ∃ middle, setup.register type.1 type.2 = .ok middle ∧ middle.registerAll types = .ok changed := by
  rw [registerAll, List.foldlM_cons, bind_eq_ok_iff] at h
  exact h

theorem ids_registerAll (h : setup.registerAll types = .ok changed) : changed.ids = setup.ids := by
  induction types generalizing setup with
  | nil =>
    cases h
    rfl
  | cons type types ih =>
    obtain ⟨middle, first, rest⟩ := registerAll_cons h
    obtain ⟨table, _, rfl⟩ := register_eq_ok_iff.1 first
    rw [ih rest]

/-- A registered type stays registered. -/
theorem entry_registerAll (h : setup.registerAll types = .ok changed)
    (found : setup.table.entry id = .ok entry) : changed.table.entry id = .ok entry := by
  induction types generalizing setup with
  | nil =>
    cases h
    exact found
  | cons type types ih =>
    obtain ⟨middle, first, rest⟩ := registerAll_cons h
    obtain ⟨table, registered, rfl⟩ := register_eq_ok_iff.1 first
    refine ih rest ?_
    by_cases same : id = type.1
    · -- The place was taken, so the registration could not have succeeded.
      obtain ⟨free, _⟩ := Table.register_eq_ok_iff.1 registered
      rw [Table.entry_eq_ok_iff, same, free] at found
      cases found
    · rw [← found]
      exact Table.entry_register_of_ne registered same

theorem entry_of_mem_registerAll (h : setup.registerAll types = .ok changed)
    (mem : (id, entry) ∈ types) : changed.table.entry id = .ok entry := by
  induction types generalizing setup with
  | nil => cases mem
  | cons type types ih =>
    obtain ⟨middle, first, rest⟩ := registerAll_cons h
    rcases List.mem_cons.1 mem with rfl | mem
    · obtain ⟨table, registered, rfl⟩ := register_eq_ok_iff.1 first
      exact entry_registerAll rest (Table.entry_register_self registered)
    · exact ih rest mem

/-- Finishing registers the builtin types and makes the values that exist once. -/
theorem finish_ok {heap : Heap} {sink : Sink} {machine : Machine} {state : State}
    (h : setup.finish heap sink = .ok (machine, state)) :
    ∃ built, setup.registerBuiltins = .ok built ∧
      machine = ⟨setup.ids, built.table, (Shared.alloc setup.ids heap).1, standardAllowance⟩ ∧
        state = ⟨(Shared.alloc setup.ids heap).2, .none, sink⟩ := by
  rw [finish, bind_eq_ok_iff] at h
  obtain ⟨built, registered, ended⟩ := h
  have same : built.ids = setup.ids := ids_registerAll registered
  cases ended
  refine ⟨built, registered, ?_, ?_⟩
  · rw [same]
    rfl
  · rw [same]
    rfl

end Setup

namespace Machine

variable {machine : Machine} {state before after : State}

/-- A new machine finds its shared values on the heap that was made with them. -/
theorem shares_alloc {ids : BuiltinIds} {table : Table} {allowance : Nat} (heap : Heap) :
    Shares ⟨ids, table, (Shared.alloc ids heap).1, allowance⟩ (Shared.alloc ids heap).2 where
  none := ((((heap.holds_alloc _).alloc _).alloc _).alloc _).alloc _ |>.alloc _
  bool value := by
    cases value with
    | false => exact ((((heap.alloc _).2.holds_alloc _).alloc _).alloc _).alloc _ |>.alloc _
    | true => exact ((((heap.alloc _).2.alloc _).2.holds_alloc _).alloc _).alloc _ |>.alloc _
  noneText := ((((heap.alloc _).2.alloc _).2.alloc _).2.holds_alloc _).alloc _ |>.alloc _
  boolText value := by
    cases value with
    | false => exact ((((heap.alloc _).2.alloc _).2.alloc _).2.alloc _).2.holds_alloc _ |>.alloc _
    | true => exact (((((heap.alloc _).2.alloc _).2.alloc _).2.alloc _).2.alloc _).2.holds_alloc _

/-- A finished machine has its builtin types and its shared values. -/
theorem live_of_assembled (h : machine.Assembled state) : machine.Live state := by
  obtain ⟨numTypes, ids, types, heap, sink, begun, setup, _, _, finished⟩ := h
  obtain ⟨built, registered, rfl, rfl⟩ := Setup.finish_ok finished
  constructor
  · intro type
    exact Setup.entry_of_mem_registerAll registered (List.mem_map_of_mem type.mem_all)
  · exact shares_alloc heap

theorem marks_of_assembled (h : machine.Assembled state) : state.marks = .none := by
  obtain ⟨numTypes, ids, types, heap, sink, begun, setup, _, _, finished⟩ := h
  obtain ⟨built, _, _, rfl⟩ := Setup.finish_ok finished
  rfl

/-- Whatever happens on a machine, it stays live. -/
theorem Live.runs (live : machine.Live before) (runs : machine.Runs before after) :
    machine.Live after :=
  ⟨live.complete, live.shares.persists (runs.related frame_persists)⟩

/-- More boxes make no difference to that. -/
theorem Live.extends (live : machine.Live before) (more : before.heap.Extends after.heap) :
    machine.Live after := ⟨live.complete, live.shares.persists more.persists⟩

/-! ## Ordinary boxes -/

/-- The box is of the builtin type of its kind, or a record whose type lacks the given methods. -/
def Ordinary (machine : Machine) (lacking : List CommonMethod) (box : Box) : Prop :=
  match box.payload.kind with
  | .builtin type => box.typeId = machine.ids.id type
  | .record => ∃ entry, machine.table.entry box.typeId = .ok entry ∧
      ∀ method ∈ lacking, entry.common? method = none

/-- The box is of the builtin type of its kind. -/
def IsBuiltin (machine : Machine) (box : Box) : Prop :=
  ∃ type, box.payload.kind = .builtin type ∧ box.typeId = machine.ids.id type

variable {lacking fewer : List CommonMethod} {box other : Box}

theorem IsBuiltin.ordinary (h : machine.IsBuiltin box) (lacking : List CommonMethod) :
    machine.Ordinary lacking box := by
  obtain ⟨type, kind, id⟩ := h
  simp only [Ordinary, kind, id]

theorem Ordinary.mono (h : machine.Ordinary lacking box) (sub : fewer ⊆ lacking) :
    machine.Ordinary fewer box := by
  unfold Ordinary at *
  split at h
  · exact h
  · obtain ⟨entry, found, lacks⟩ := h
    exact ⟨entry, found, fun method mem => lacks method (sub mem)⟩

theorem Ordinary.typeId_eq (h : machine.Ordinary lacking box) {type : BuiltinType}
    (kind : box.payload.kind = .builtin type) : box.typeId = machine.ids.id type := by
  unfold Ordinary at h
  rwa [kind] at h

/-- What the type of an ordinary box answers a common method with. -/
theorem Ordinary.entry (complete : machine.Complete) (h : machine.Ordinary lacking box)
    {method : CommonMethod} (mem : method ∈ lacking) :
    ∃ entry, machine.table.entry box.typeId = .ok entry ∧
      entry.common? method = match box.payload.kind with
        | .builtin type => some (.builtin (.common type method))
        | .record => none := by
  unfold Ordinary at h
  split at h
  · rename_i type kind
    rw [h]
    exact ⟨type.entry, complete type, type.common?_entry method⟩
  · obtain ⟨entry, found, lacks⟩ := h
    exact ⟨entry, found, lacks method mem⟩

/-- Ordinary boxes of one type are of one kind. -/
theorem Ordinary.kind_eq (complete : machine.Complete) {method : CommonMethod}
    (h : machine.Ordinary lacking box) (h' : machine.Ordinary lacking other)
    (mem : method ∈ lacking) (same : box.typeId = other.typeId) :
    box.payload.kind = other.payload.kind := by
  obtain ⟨entry, found, answer⟩ := h.entry complete mem
  obtain ⟨entry', found', answer'⟩ := h'.entry complete mem
  rw [same, found', Except.ok.injEq] at found
  rw [found, answer] at answer'
  cases kind : box.payload.kind with
  | builtin type =>
    cases kind' : other.payload.kind with
    | builtin type' =>
      rw [kind, kind'] at answer'
      cases answer'
      rfl
    | record =>
      rw [kind, kind'] at answer'
      cases answer'
  | record =>
    cases kind' : other.payload.kind with
    | builtin type' =>
      rw [kind, kind'] at answer'
      cases answer'
    | record => rfl

/-- Boxes that are compared and hashed without a registered method. -/
def Plain (machine : Machine) : Box → Prop := machine.Ordinary [.equal, .hash]

/-- Boxes that are compared without a registered method. -/
def Comparable (machine : Machine) : Box → Prop := machine.Ordinary [.equal]

/-- Boxes that are hashed without a registered method. -/
def Hashable (machine : Machine) : Box → Prop := machine.Ordinary [.hash]

theorem comparable_of_plain (box : Box) (h : machine.Plain box) : machine.Comparable box :=
  h.mono (by simp)

theorem hashable_of_plain (box : Box) (h : machine.Plain box) : machine.Hashable box :=
  h.mono (by simp)

/-! ## The machine with builtin types only -/

/-- The machine with the builtin types only, numbered in order. -/
def bare : Machine where
  ids := .standard
  table := ⟨(BuiltinType.all.map fun type => some type.entry).toArray⟩
  shared := ⟨⟨0⟩, ⟨1⟩, ⟨2⟩, ⟨3⟩, ⟨4⟩, ⟨5⟩⟩
  allowance := Setup.standardAllowance

/-- Its first state. -/
def bareState : State := ⟨(Shared.alloc .standard .empty).2, .none, .unlimited⟩

theorem standard_eq : standard = .ok (bare, bareState) := rfl

theorem assembled_bare : bare.Assembled bareState :=
  ⟨BuiltinType.all.length, .standard, [], .empty, .unlimited, ⟨.standard, .ofSize 6⟩,
    ⟨.standard, .ofSize 6⟩, rfl, rfl, standard_eq⟩

/-- It stays live with more boxes. -/
theorem live_bare_append (boxes : Array Box) :
    bare.Live { bareState with heap := ⟨bareState.heap.boxes ++ boxes⟩ } where
  complete := (live_of_assembled assembled_bare).complete
  shares := (live_of_assembled assembled_bare).shares.persists
    (Heap.extends_append bareState.heap boxes).persists

/-- On it, an array that contains itself, and two arrays that contain each other. -/
def ringState : State :=
  let array (item : Ref) : Box := ⟨bare.ids.array, .array ⟨#[item], 1⟩⟩
  { bareState with heap := ⟨bareState.heap.boxes ++ #[array ⟨6⟩, array ⟨8⟩, array ⟨7⟩]⟩ }

theorem runs_ringState : bare.Runs bareState ringState := by
  have array (items : List Ref) {before after : State}
      (h : bare.newArray items before = .ok ⟨before.heap.size⟩ after) : bare.Step before after :=
    .request (.array items) (.inl ⟨_, h⟩)
  have set (holder item : Ref) {before after : State}
      (h : Exec.setSlot holder 0 item before = .ok () after) : bare.Step before after :=
    .request (.set holder 0 item) (.inl ⟨_, h⟩)
  refine .tail (.tail (.tail (.tail (.tail .refl (array [bare.noneValue] rfl)) (set ⟨6⟩ ⟨6⟩ rfl))
    (array [bare.noneValue] rfl)) (array [⟨7⟩] rfl)) (set ⟨7⟩ ⟨8⟩ ?_)
  rfl

theorem live_ringState : bare.Live ringState := (live_of_assembled assembled_bare).runs runs_ringState

/-- The references of the three arrays. -/
def rings : List Ref := [⟨6⟩, ⟨7⟩, ⟨8⟩]

/-- Each of them holds one of them. -/
theorem holds_rings {value : Ref} (h : value ∈ rings) :
    ∃ item ∈ rings, ringState.heap.Holds value ⟨bare.ids.array, .array ⟨#[item], 1⟩⟩ := by
  simp only [rings, List.mem_cons, List.not_mem_nil, or_false] at h
  rcases h with rfl | rfl | rfl
  · exact ⟨⟨6⟩, by decide, rfl⟩
  · exact ⟨⟨8⟩, by decide, rfl⟩
  · exact ⟨⟨7⟩, by decide, rfl⟩

theorem within_rings {value : Ref} (h : value ∈ rings) :
    ringState.heap.Within bare.IsBuiltin value := by
  apply Heap.within_of_closed (S := (· ∈ rings)) _ _ h
  · intro ref member
    obtain ⟨item, _, held⟩ := holds_rings member
    exact ⟨_, held, .array, rfl, rfl⟩
  · intro ref member item mem
    obtain ⟨next, isRing, held⟩ := holds_rings member
    rw [Heap.items_of_array (by rw [held.get])] at mem
    have same : item = next := List.mem_singleton.1 mem
    rwa [same]

end Machine

end BoxedValues
