import BoxedValues.Proofs.Machine.Assembled
import BoxedValues.Proofs.Table.Registering

/-!
# Which machines can be assembled

A machine is assembled in three phases: the identities of the builtin types are checked, other types
are registered one after another, and then the builtin types are. Each phase goes through a list and
stops at the first item that is in conflict with what came before it (`firstConflict`).

* `BuiltinType.method?_entry`: what each slot of a builtin type holds;
* `Setup.registerAll_decided`: registering types, by induction on their list, either meets the first
  conflict or leaves a table that holds them and no others (`Table.HoldsOnly`);
* `Setup.assemble_decided`: **assembly succeeds exactly on consistent identities**, with the table
  that they call for, and otherwise fails with the first conflict of the first phase that has one.
-/

set_option autoImplicit false

namespace BoxedValues

/-! ## The first conflict of a list -/

section

variable {ι : Type} (conflict : List ι → ι → Option MachineError)

/-- No item is in conflict with the items before it. -/
def Harmonious (items : List ι) : Prop :=
  ∀ earlier item later, items = earlier ++ item :: later → conflict earlier item = none

/-- The error is that of the first item which is in conflict with the items before it. -/
def FirstConflict (items : List ι) (error : MachineError) : Prop :=
  ∃ earlier item later, items = earlier ++ item :: later ∧ conflict earlier item = some error ∧
    Harmonious conflict earlier

/-- The first conflict of items that come after earlier ones. -/
def firstConflict (earlier : List ι) : List ι → Option MachineError
  | [] => none
  | item :: rest =>
    match conflict earlier item with
    | some error => some error
    | none => firstConflict (earlier ++ [item]) rest

variable {conflict} {earlier items : List ι} {error : MachineError}

theorem firstConflict_eq_none_iff : firstConflict conflict earlier items = none ↔
    ∀ before item after, items = before ++ item :: after → conflict (earlier ++ before) item = none := by
  induction items generalizing earlier with
  | nil => simp [firstConflict]
  | cons first rest ih =>
    rw [firstConflict]
    constructor
    · intro h before item after same
      cases met : conflict earlier first with
      | some error =>
        rw [met] at h
        cases h
      | none =>
        rw [met] at h
        cases before with
        | nil =>
          cases same
          rwa [List.append_nil]
        | cons head before =>
          cases same
          rw [List.append_cons]
          exact ih.1 h before item after rfl
    · intro h
      have met := h [] first rest rfl
      rw [List.append_nil] at met
      rw [met]
      refine ih.2 fun before item after same => ?_
      have further := h (first :: before) item after (by rw [same, List.cons_append])
      rwa [List.append_cons] at further

theorem firstConflict_eq_some_iff : firstConflict conflict earlier items = some error ↔
    ∃ before item after, items = before ++ item :: after ∧
      conflict (earlier ++ before) item = some error ∧ firstConflict conflict earlier before = none := by
  induction items generalizing earlier with
  | nil => simp [firstConflict]
  | cons first rest ih =>
    rw [firstConflict]
    cases met : conflict earlier first with
    | some found =>
      constructor
      · rintro ⟨⟩
        exact ⟨[], first, rest, rfl, by rwa [List.append_nil], rfl⟩
      · rintro ⟨before, item, after, same, found', clear⟩
        cases before with
        | nil =>
          cases same
          rw [List.append_nil, met] at found'
          exact found'
        | cons head before =>
          cases same
          rw [firstConflict, met] at clear
          cases clear
    | none =>
      constructor
      · intro h
        obtain ⟨before, item, after, rfl, found, clear⟩ := ih.1 h
        refine ⟨first :: before, item, after, rfl, by rwa [List.append_cons], ?_⟩
        rw [firstConflict, met]
        exact clear
      · rintro ⟨before, item, after, same, found, clear⟩
        cases before with
        | nil =>
          cases same
          rw [List.append_nil, met] at found
          cases found
        | cons head before =>
          cases same
          rw [firstConflict, met] at clear
          rw [List.append_cons] at found
          exact ih.2 ⟨before, item, after, rfl, found, clear⟩

theorem harmonious_iff : Harmonious conflict items ↔ firstConflict conflict [] items = none := by
  rw [firstConflict_eq_none_iff]
  rfl

theorem firstConflict_iff :
    FirstConflict conflict items error ↔ firstConflict conflict [] items = some error := by
  rw [firstConflict_eq_some_iff]
  simp only [List.nil_append, ← harmonious_iff]
  rfl

end

/-- Items without conflicts, where a conflict is an identity beyond the table or one that an earlier
item has. -/
theorem firstConflict_eq_none_iff_nodup {ι : Type} {conflict : List ι → ι → Option MachineError}
    {numTypes : Nat} {id : ι → TypeId} (none_iff : ∀ earlier item, conflict earlier item = none ↔
      (id item).index < numTypes ∧ id item ∉ earlier.map id) {earlier items : List ι} :
    firstConflict conflict earlier items = none ↔ (∀ item ∈ items, (id item).index < numTypes) ∧
      (items.map id).Nodup ∧ ∀ item ∈ items, id item ∉ earlier.map id := by
  induction items generalizing earlier with
  | nil => simp [firstConflict]
  | cons first rest ih =>
    have step : firstConflict conflict earlier (first :: rest) = none ↔
        conflict earlier first = none ∧ firstConflict conflict (earlier ++ [first]) rest = none := by
      rw [firstConflict]
      cases conflict earlier first <;> simp
    rw [step, none_iff, ih]
    simp only [List.forall_mem_cons, List.map_cons, List.nodup_cons, List.map_append, List.map_nil,
      List.mem_append, List.mem_singleton, not_or, List.mem_map, not_exists, not_and]
    constructor
    · rintro ⟨⟨inside, fresh⟩, allInside, distinct, apart⟩
      exact ⟨⟨inside, allInside⟩, ⟨fun item mem => (apart item mem).2, distinct⟩, fresh,
        fun item mem => (apart item mem).1⟩
    · rintro ⟨⟨inside, allInside⟩, ⟨others, distinct⟩, fresh, apart⟩
      exact ⟨⟨inside, fresh⟩, allInside, distinct, fun item mem => ⟨apart item mem, others item mem⟩⟩

/-! ## The conflicts of the three phases -/

/-- A builtin type's identity lies beyond the table, or it is that of an earlier builtin type, the
first such. -/
def BuiltinIds.conflict (ids : BuiltinIds) (numTypes : Nat) (earlier : List BuiltinType)
    (type : BuiltinType) : Option MachineError :=
  if numTypes ≤ (ids.id type).index then some (.beyondTable (ids.id type) numTypes)
  else (earlier.find? fun other => ids.id other = ids.id type).map fun first =>
    .sharedId (ids.id type) first type

/-- A builtin type's identity was registered for another type. -/
def BuiltinIds.taken (ids : BuiltinIds) (types : List (TypeId × Entry)) (type : BuiltinType) :
    Option MachineError :=
  if ids.id type ∈ types.map Prod.fst then some (.registeredTwice (ids.id type)) else .none

theorem BuiltinIds.conflict_eq_none_iff {ids : BuiltinIds} {numTypes : Nat}
    (earlier : List BuiltinType) (type : BuiltinType) : ids.conflict numTypes earlier type = .none ↔
      (ids.id type).index < numTypes ∧ ids.id type ∉ earlier.map ids.id := by
  unfold conflict
  split
  · rename_i beyond
    simp only [reduceCtorEq, false_iff, not_and]
    omega
  · rename_i inside
    rw [Option.map_eq_none_iff, List.find?_eq_none]
    simp only [decide_eq_true_eq, List.mem_map, not_exists, not_and]
    exact (and_iff_right (Nat.not_le.1 inside)).symm

/-- The check of the builtin identities finds the first conflict. -/
theorem BuiltinIds.checkFrom_eq (ids : BuiltinIds) (numTypes : Nat)
    (earlier types : List BuiltinType) : ids.checkFrom numTypes earlier types =
      match firstConflict (ids.conflict numTypes) earlier types with
      | some error => .error error
      | .none => .ok () := by
  induction types generalizing earlier with
  | nil => rfl
  | cons type rest ih =>
    rw [checkFrom, firstConflict, conflict]
    split
    · rfl
    · cases earlier.find? fun other => ids.id other = ids.id type with
      | some first => rfl
      | none => exact ih (earlier ++ [type])

/-! ## The slots of the builtin types -/

/-- The slot of a builtin method in its type. -/
def Builtin.slot : Builtin → Nat
  | .common _ method => method.slot
  | .string method => method.slot
  | .array method => method.slot

/-- A builtin type has its own methods in their slots, and no others. -/
theorem BuiltinType.method?_entry_iff {type : BuiltinType} {slot : Nat} {method : Method} :
    type.entry.method? slot = some method ↔
      ∃ builtin : Builtin, builtin.type = type ∧ builtin.slot = slot ∧ method = .builtin builtin := by
  have listed : type.entry.method? slot = (type.methods[slot]?).map .builtin := List.getElem?_map
  have placed : ∀ type ∈ all, ∀ slot < 15, (type.methods[slot]?).all (fun builtin =>
      builtin.type = type ∧ builtin.slot = slot) = true := by decide
  have few : ∀ type ∈ all, type.methods.length ≤ 15 := by decide
  rw [listed, Option.map_eq_some_iff]
  constructor
  · rintro ⟨builtin, found, rfl⟩
    obtain ⟨inside, _⟩ := List.getElem?_eq_some_iff.1 found
    have own := placed type type.mem_all slot (Nat.lt_of_lt_of_le inside (few type type.mem_all))
    rw [found, Option.all_some, decide_eq_true_eq] at own
    exact ⟨builtin, own.1, own.2, rfl⟩
  · rintro ⟨builtin, rfl, rfl, rfl⟩
    refine ⟨builtin, ?_, rfl⟩
    cases builtin with
    | common type method => cases type <;> cases method <;> rfl
    | string method => cases method <;> rfl
    | array method => cases method <;> rfl

/-- The builtin method of a type whose slot this is, by the lists of the common methods and of the
libraries. -/
def BuiltinType.ofSlot? (type : BuiltinType) (slot : Nat) : Option Builtin :=
  let library : Option Builtin :=
    match type with
    | .string => (StringMethod.ofSlot? slot).map .string
    | .array => (ArrayMethod.ofSlot? slot).map .array
    | _ => .none
  ((CommonMethod.ofSlot? slot).map (.common type)).or library

theorem find?_slot_eq_none {α : Type} {place : α → Nat} {all : List α} {bound slot : Nat}
    (inside : ∀ method ∈ all, place method < bound) (beyond : bound ≤ slot) :
    all.find? (fun method => place method == slot) = none := by
  refine List.find?_eq_none.2 fun method mem => ?_
  simpa using ((inside method mem).trans_le beyond).ne

/-- Every slot of a builtin type holds the method that the lists give it. -/
theorem BuiltinType.method?_entry (type : BuiltinType) (slot : Nat) :
    type.entry.method? slot = (type.ofSlot? slot).map .builtin := by
  have listed : type.entry.method? slot = (type.methods[slot]?).map .builtin := List.getElem?_map
  have few : ∀ type ∈ all, type.methods.length ≤ 15 := by decide
  have placed : ∀ type ∈ all, ∀ slot < 15, type.methods[slot]? = type.ofSlot? slot := by decide
  rw [listed]
  obtain small | large := Nat.lt_or_ge slot 15
  · rw [placed type type.mem_all slot small]
  · have common : CommonMethod.ofSlot? slot = .none := find?_slot_eq_none (by decide) large
    have string : StringMethod.ofSlot? slot = .none := find?_slot_eq_none (by decide) large
    have array : ArrayMethod.ofSlot? slot = .none := find?_slot_eq_none (by decide) large
    rw [List.getElem?_eq_none ((few type type.mem_all).trans large)]
    cases type <;> simp [ofSlot?, common, string, array]

/-! ## Assembly -/

namespace Setup

variable {setup : Setup} {numTypes : Nat} {ids : BuiltinIds} {types earlier : List (TypeId × Entry)}

/-- Registering types one after another meets the first conflict, or leaves a table that holds them
too. -/
theorem registerAll_decided (setup : Setup) (types : List (TypeId × Entry))
    (h : setup.table.HoldsOnly numTypes earlier) :
    (∃ error, firstConflict (Table.conflict numTypes) earlier types = some error ∧
      setup.registerAll types = .error error) ∨
    firstConflict (Table.conflict numTypes) earlier types = none ∧
      ∃ table, setup.registerAll types = .ok { setup with table } ∧
        table.HoldsOnly numTypes (earlier ++ types) := by
  induction types generalizing setup earlier with
  | nil => exact .inr ⟨rfl, setup.table, rfl, by rwa [List.append_nil]⟩
  | cons type types ih =>
    have split : setup.registerAll (type :: types) =
        (setup.register type.1 type.2).bind (·.registerAll types) := List.foldlM_cons
    rw [split, register, firstConflict]
    rcases Table.register_decided h type with ⟨error, met, refused⟩ | ⟨clear, table, ok, holds⟩
    · rw [met, refused]
      exact .inl ⟨error, rfl, rfl⟩
    · rw [clear, ok, List.append_cons earlier type types]
      exact ih { setup with table } holds

/-- The builtin types with their identities. -/
def builtins (ids : BuiltinIds) : List (TypeId × Entry) :=
  BuiltinType.all.map fun type => (ids.id type, type.entry)

/-- The whole assembly: the builtin identities are checked, the types are registered in order, and
then the builtin ones. -/
def assemble (numTypes : Nat) (ids : BuiltinIds) (types : List (TypeId × Entry)) (heap : Heap)
    (sink : Sink) : Except MachineError (Machine × State) := do
  let begun ← start numTypes ids
  let registered ← begun.registerAll types
  registered.finish heap sink

/-- The identities fit: all have places in the table, and no two types have the same. -/
structure Consistent (numTypes : Nat) (ids : BuiltinIds) (types : List (TypeId × Entry)) : Prop where
  builtin_lt : ∀ type, (ids.id type).index < numTypes
  builtin_nodup : (BuiltinType.all.map ids.id).Nodup
  lt : ∀ type ∈ types, type.1.index < numTypes
  nodup : (types.map Prod.fst).Nodup
  apart : ∀ type, ids.id type ∉ types.map Prod.fst

/-- The error is the first conflict of the first phase that has one: of the builtin identities among
themselves, of the registered ones among themselves, or of the builtin with the registered ones. -/
def Refuses (numTypes : Nat) (ids : BuiltinIds) (types : List (TypeId × Entry))
    (error : MachineError) : Prop :=
  FirstConflict (ids.conflict numTypes) BuiltinType.all error ∨
  Harmonious (ids.conflict numTypes) BuiltinType.all ∧
    (FirstConflict (Table.conflict numTypes) types error ∨
    Harmonious (Table.conflict numTypes) types ∧
      FirstConflict (fun _ => ids.taken types) BuiltinType.all error)

/-- The machine has the table that the identities call for: under each identity the type that was
registered with it, or the builtin type that has it, and a builtin type has its own methods in their
slots and no others. -/
structure Fulfils (numTypes : Nat) (ids : BuiltinIds) (types : List (TypeId × Entry))
    (machine : Machine) : Prop where
  ids_eq : machine.ids = ids
  size : machine.table.size = numTypes
  entry : ∀ id entry, machine.table.entry id = .ok entry ↔
    (id, entry) ∈ types ∨ ∃ type, id = ids.id type ∧ entry = type.entry
  other : ∀ id, id ∉ types.map Prod.fst → (∀ type, id ≠ ids.id type) → machine.table.entry id =
    .error (if id.index < numTypes then .notRegistered id else .beyondTable id numTypes)
  builtin : ∀ type, ∃ entry, machine.table.entry (ids.id type) = .ok entry ∧ entry.name = type.name ∧
    entry.method? 0 = some (.builtin (.common type .toText)) ∧
    entry.method? 1 = some (.builtin (.common type .equal)) ∧
    entry.method? 2 = some (.builtin (.common type .hash)) ∧
    ∀ slot method, entry.method? slot = some method ↔
      ∃ builtin : Builtin, builtin.type = type ∧ builtin.slot = slot ∧ method = .builtin builtin

/-- Builtin types without conflicts of their own only collide with types that were registered. -/
theorem firstConflict_builtins (types : List (TypeId × Entry)) (before : List BuiltinType)
    {after : List BuiltinType} (h : BuiltinType.all = before ++ after)
    (inside : ∀ type, (ids.id type).index < numTypes) (distinct : (BuiltinType.all.map ids.id).Nodup) :
    firstConflict (Table.conflict numTypes)
        (types ++ before.map fun type => (ids.id type, type.entry))
        (after.map fun type => (ids.id type, type.entry)) =
      firstConflict (fun _ => ids.taken types) before after := by
  induction after generalizing before with
  | nil => rfl
  | cons type after ih =>
    have fresh : ids.id type ∉ before.map ids.id := by
      rw [h, List.map_append, List.map_cons, List.nodup_append] at distinct
      exact fun mem => distinct.2.2 _ mem _ (List.mem_cons_self ..) rfl
    have same : Table.conflict numTypes
        (types ++ before.map fun type => (ids.id type, type.entry)) (ids.id type, type.entry) =
          ids.taken types type := by
      have earlier : (before.map fun type => (ids.id type, type.entry)).map Prod.fst =
          before.map ids.id := List.map_map
      rw [Table.conflict, if_neg (Nat.not_le.2 (inside type)), List.map_append, earlier,
        BuiltinIds.taken]
      simp only [List.mem_append, fresh, or_false]
    rw [List.map_cons, firstConflict, firstConflict, same]
    cases ids.taken types type with
    | some error => rfl
    | none =>
      have further := ih (before ++ [type]) (by rw [h, List.append_cons])
      rwa [List.map_append, ← List.append_assoc] at further

theorem harmonious_builtins_iff : Harmonious (ids.conflict numTypes) BuiltinType.all ↔
    (∀ type, (ids.id type).index < numTypes) ∧ (BuiltinType.all.map ids.id).Nodup := by
  rw [harmonious_iff, firstConflict_eq_none_iff_nodup BuiltinIds.conflict_eq_none_iff]
  simp [BuiltinType.mem_all]

theorem harmonious_types_iff : Harmonious (Table.conflict numTypes) types ↔
    (∀ type ∈ types, type.1.index < numTypes) ∧ (types.map Prod.fst).Nodup := by
  rw [harmonious_iff, firstConflict_eq_none_iff_nodup Table.conflict_eq_none_iff]
  simp

theorem harmonious_taken_iff : Harmonious (fun _ => ids.taken types) BuiltinType.all ↔
    ∀ type, ids.id type ∉ types.map Prod.fst := by
  have free (type : BuiltinType) :
      ids.taken types type = none ↔ ids.id type ∉ types.map Prod.fst := by
    unfold BuiltinIds.taken
    split <;> simp_all
  constructor
  · intro h type
    obtain ⟨before, after, same⟩ := List.append_of_mem type.mem_all
    exact (free type).1 (h before type after same)
  · exact fun h _ type _ _ => (free type).2 (h type)

theorem consistent_iff : Consistent numTypes ids types ↔
    Harmonious (ids.conflict numTypes) BuiltinType.all ∧
      Harmonious (Table.conflict numTypes) types ∧
        Harmonious (fun _ => ids.taken types) BuiltinType.all := by
  rw [harmonious_builtins_iff, harmonious_types_iff, harmonious_taken_iff]
  constructor
  · rintro ⟨inside, distinct, lt, nodup, apart⟩
    exact ⟨⟨inside, distinct⟩, ⟨lt, nodup⟩, apart⟩
  · rintro ⟨⟨inside, distinct⟩, ⟨lt, nodup⟩, apart⟩
    exact ⟨inside, distinct, lt, nodup, apart⟩

/-- Finishing a table that holds other types meets one of them under a builtin identity, or adds the
builtin types to them. -/
theorem finish_decided {table : Table} (holds : table.HoldsOnly numTypes types)
    (inside : ∀ type, (ids.id type).index < numTypes)
    (distinct : (BuiltinType.all.map ids.id).Nodup) (heap : Heap) (sink : Sink) :
    (∃ error, FirstConflict (fun _ => ids.taken types) BuiltinType.all error ∧
      finish ⟨ids, table⟩ heap sink = .error error) ∨
    Harmonious (fun _ => ids.taken types) BuiltinType.all ∧
      ∃ machine state, finish ⟨ids, table⟩ heap sink = .ok (machine, state) ∧ machine.ids = ids ∧
        machine.table.HoldsOnly numTypes (types ++ builtins ids) := by
  have same : firstConflict (Table.conflict numTypes) types (builtins ids) =
      firstConflict (fun _ => ids.taken types) [] BuiltinType.all := by
    have all := firstConflict_builtins types [] rfl inside distinct
    rwa [List.map_nil, List.append_nil] at all
  rw [finish, registerBuiltins, harmonious_iff]
  rcases registerAll_decided ⟨ids, table⟩ (builtins ids) holds with
    ⟨error, met, refused⟩ | ⟨clear, changed, ok, both⟩
  · rw [builtins] at refused
    exact .inl ⟨error, firstConflict_iff.2 (same ▸ met), by rw [refused]; rfl⟩
  · rw [builtins] at ok
    refine .inr ⟨same ▸ clear, ⟨ids, changed, (Shared.alloc ids heap).1, standardAllowance⟩,
      ⟨(Shared.alloc ids heap).2, .none, sink⟩, ?_, rfl, both⟩
    rw [ok]
    rfl

theorem fulfils_of_holdsOnly {machine : Machine} (same : machine.ids = ids)
    (holds : machine.table.HoldsOnly numTypes (types ++ builtins ids)) :
    Fulfils numTypes ids types machine := by
  have listed (id : TypeId) (entry : Entry) : (id, entry) ∈ builtins ids ↔
      ∃ type, id = ids.id type ∧ entry = type.entry := by
    simp [builtins, BuiltinType.mem_all, eq_comm]
  have found (id : TypeId) (entry : Entry) : machine.table.entry id = .ok entry ↔
      (id, entry) ∈ types ∨ ∃ type, id = ids.id type ∧ entry = type.entry := by
    rw [holds.entry, List.mem_append, listed]
  refine ⟨same, holds.size, found, fun id fresh apart => ?_, fun type => ?_⟩
  · apply holds.entry_eq_error
    rw [List.map_append, List.mem_append]
    rintro (mem | mem)
    · exact fresh mem
    · obtain ⟨⟨_, entry⟩, held, rfl⟩ := List.mem_map.1 mem
      obtain ⟨type, same, _⟩ := (listed _ entry).1 held
      exact apart type same
  · exact ⟨type.entry, (found _ _).2 (.inr ⟨type, rfl, rfl⟩), rfl, type.common?_entry .toText,
      type.common?_entry .equal, type.common?_entry .hash, fun _ _ => BuiltinType.method?_entry_iff⟩

/-- Assembly ends in one of two ways. -/
theorem assemble_cases (numTypes : Nat) (ids : BuiltinIds) (types : List (TypeId × Entry))
    (heap : Heap) (sink : Sink) :
    (∃ error, Refuses numTypes ids types error ∧ assemble numTypes ids types heap sink = .error error) ∨
    Consistent numTypes ids types ∧ ∃ machine state,
      assemble numTypes ids types heap sink = .ok (machine, state) ∧
        Fulfils numTypes ids types machine := by
  have checked : ids.check numTypes = _ := ids.checkFrom_eq numTypes [] BuiltinType.all
  rw [assemble, start, checked, consistent_iff]
  cases met : firstConflict (ids.conflict numTypes) [] BuiltinType.all with
  | some error => exact .inl ⟨error, .inl (firstConflict_iff.2 met), rfl⟩
  | none =>
    have fits := harmonious_iff.2 met
    obtain ⟨inside, distinct⟩ := harmonious_builtins_iff.1 fits
    rcases registerAll_decided ⟨ids, .ofSize numTypes⟩ types
      (Table.holdsOnly_ofSize numTypes) with ⟨error, met, refused⟩ | ⟨clear, table, ok, holds⟩
    · refine .inl ⟨error, .inr ⟨fits, .inl (firstConflict_iff.2 met)⟩, ?_⟩
      show (registerAll ⟨ids, .ofSize numTypes⟩ types >>= _) = _
      rw [refused]
      rfl
    · have clear := harmonious_iff.2 clear
      show (∃ error, _ ∧ (registerAll ⟨ids, .ofSize numTypes⟩ types >>= _) = _) ∨ _ ∧ ∃ machine state,
        (registerAll ⟨ids, .ofSize numTypes⟩ types >>= _) = _ ∧ _
      rw [ok]
      rcases finish_decided holds inside distinct heap sink with
        ⟨error, met, refused⟩ | ⟨free, machine, state, finished, same, both⟩
      · exact .inl ⟨error, .inr ⟨fits, .inr ⟨clear, met⟩⟩, refused⟩
      · exact .inr ⟨⟨fits, clear, free⟩, machine, state, finished, fulfils_of_holdsOnly same both⟩

/-- Consistent identities are not refused. -/
theorem Consistent.not_refuses {error : MachineError} (h : Consistent numTypes ids types) :
    ¬ Refuses numTypes ids types error := by
  obtain ⟨fits, clear, free⟩ := consistent_iff.1 h
  rw [harmonious_iff] at fits clear free
  rintro (met | ⟨_, met | ⟨_, met⟩⟩) <;> rw [firstConflict_iff] at met
  · rw [fits] at met
    cases met
  · rw [clear] at met
    cases met
  · rw [free] at met
    cases met

/-- Identities are refused for one reason. -/
theorem Refuses.unique {error other : MachineError} (h : Refuses numTypes ids types error)
    (h' : Refuses numTypes ids types other) : error = other := by
  simp only [Refuses, firstConflict_iff, harmonious_iff] at h h'
  grind

/-- **Assembly succeeds exactly on consistent identities**, and the machine then has the table that
they call for. Otherwise it fails with the first conflict. -/
theorem assemble_decided (numTypes : Nat) (ids : BuiltinIds) (types : List (TypeId × Entry))
    (heap : Heap) (sink : Sink) :
    ((∃ machine state, assemble numTypes ids types heap sink = .ok (machine, state)) ↔
      Consistent numTypes ids types) ∧
    (∀ machine state, assemble numTypes ids types heap sink = .ok (machine, state) →
      Fulfils numTypes ids types machine) ∧
    ∀ error, assemble numTypes ids types heap sink = .error error ↔
      Refuses numTypes ids types error := by
  rcases assemble_cases numTypes ids types heap sink with
    ⟨error, refuses, ended⟩ | ⟨consistent, machine, state, ended, fulfils⟩
  · rw [ended]
    refine ⟨⟨?_, fun consistent => absurd refuses consistent.not_refuses⟩, ?_, fun other => ?_⟩
    · rintro ⟨machine, state, ⟨⟩⟩
    · rintro machine state ⟨⟩
    · rw [Except.error.injEq]
      exact ⟨fun same => same ▸ refuses, refuses.unique⟩
  · rw [ended]
    refine ⟨⟨fun _ => consistent, fun _ => ⟨machine, state, rfl⟩⟩, ?_, fun error => ?_⟩
    · rintro machine state ⟨⟩
      exact fulfils
    · exact ⟨fun same => (by cases same), fun refuses => absurd refuses consistent.not_refuses⟩

/-- A shared identity is found before a type that was registered under another builtin identity. -/
example (entry : Entry) : assemble 6 { BuiltinIds.standard with string := ⟨0⟩ } [(⟨5⟩, entry)]
    .empty .unlimited = .error (.sharedId ⟨0⟩ .none .string) := rfl

end Setup

/-- The assembled machines are those that assembly succeeds with. -/
theorem Machine.assembled_iff {machine : Machine} {state : State} : machine.Assembled state ↔
    ∃ numTypes ids types heap sink,
      Setup.assemble numTypes ids types heap sink = .ok (machine, state) := by
  simp only [Setup.assemble, Setup.bind_eq_ok_iff, Assembled, exists_and_left]

end BoxedValues
