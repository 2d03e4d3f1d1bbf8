import BoxedValues.Table
import Mathlib.Data.List.Induction
import Mathlib.Data.List.Nodup
import Mathlib.Tactic.SplitIfs

/-!
# Registering types

Each place of a type table is filled at most once. What that comes to is said of one call of
`register` first, and then of any number of calls, of which some fail.

* `Table.register_decided`: a call meets a conflict or adds its type to those that the table holds;
* `Table.holdsOnly_after`: by induction on the calls, a table holds the types of those that
  succeeded, and no others;
* `Table.entries_attempt`: a call touches the one place of its identity, and only if that is free,
  so calls with different identities can change places (`attempt_comm`);
* `Table.writes_once`: **a table is a write-once map**, whatever calls were made on it.
-/

set_option autoImplicit false

namespace BoxedValues.Table

/-! ## Tables that hold given types -/

/-- A registered type's identity lies beyond the table, or was registered before. -/
def conflict (numTypes : Nat) (earlier : List (TypeId × Entry)) (type : TypeId × Entry) :
    Option MachineError :=
  if numTypes ≤ type.1.index then some (.beyondTable type.1 numTypes)
  else if type.1 ∈ earlier.map Prod.fst then some (.registeredTwice type.1)
  else none

theorem conflict_eq_none_iff {numTypes : Nat} (earlier : List (TypeId × Entry))
    (type : TypeId × Entry) : conflict numTypes earlier type = none ↔
      type.1.index < numTypes ∧ type.1 ∉ earlier.map Prod.fst := by
  unfold conflict
  split
  · rename_i beyond
    simp only [reduceCtorEq, false_iff, not_and]
    omega
  · rename_i inside
    split
    · rename_i taken
      simp [taken]
    · rename_i free
      simp only [true_iff]
      exact ⟨Nat.not_le.1 inside, free⟩

/-- The table has so many places and holds these types and no others. -/
structure HoldsOnly (table : Table) (numTypes : Nat) (types : List (TypeId × Entry)) : Prop where
  size : table.size = numTypes
  entry : ∀ id entry, table.entry id = .ok entry ↔ (id, entry) ∈ types

variable {table : Table} {numTypes : Nat} {types : List (TypeId × Entry)} {id : TypeId}

theorem holdsOnly_ofSize (numTypes : Nat) : (ofSize numTypes).HoldsOnly numTypes [] := by
  refine ⟨size_ofSize numTypes, fun id entry => ?_⟩
  rw [entry_eq_ok_iff]
  simp [ofSize, Array.getElem?_replicate]

theorem getElem?_eq_none (h : table.HoldsOnly numTypes types) (beyond : numTypes ≤ id.index) :
    table.entries[id.index]? = none := by
  rw [← h.size] at beyond
  exact Array.getElem?_eq_none beyond

theorem getElem?_eq_some_none (h : table.HoldsOnly numTypes types) (inside : id.index < numTypes)
    (fresh : id ∉ types.map Prod.fst) : table.entries[id.index]? = some none := by
  cases place : table.entries[id.index]? with
  | none =>
    have beyond : table.size ≤ id.index := Array.getElem?_eq_none_iff.1 place
    rw [h.size] at beyond
    omega
  | some held =>
    cases held with
    | none => rfl
    | some entry =>
      have mem := (h.entry id entry).1 (entry_eq_ok_iff.2 place)
      exact absurd (List.mem_map_of_mem mem) fresh

/-- What such a table says of an identity that it does not hold. -/
theorem HoldsOnly.entry_eq_error (h : table.HoldsOnly numTypes types)
    (fresh : id ∉ types.map Prod.fst) : table.entry id =
      .error (if id.index < numTypes then .notRegistered id else .beyondTable id numTypes) := by
  unfold Table.entry
  split_ifs with inside
  · rw [getElem?_eq_some_none h inside fresh]
  · rw [getElem?_eq_none h (Nat.not_lt.1 inside), h.size]

/-- A registration meets a conflict or adds the type to those that the table holds. -/
theorem register_decided (h : table.HoldsOnly numTypes types) (type : TypeId × Entry) :
    (∃ error, conflict numTypes types type = some error ∧
      table.register type.1 type.2 = .error error) ∨
    conflict numTypes types type = none ∧ ∃ changed, table.register type.1 type.2 = .ok changed ∧
      changed.HoldsOnly numTypes (types ++ [type]) := by
  obtain ⟨id, entry⟩ := type
  by_cases beyond : numTypes ≤ id.index
  · refine .inl ⟨.beyondTable id numTypes, if_pos beyond, ?_⟩
    rw [register, getElem?_eq_none h beyond, h.size]
  by_cases taken : id ∈ types.map Prod.fst
  · refine .inl ⟨.registeredTwice id, ?_, ?_⟩
    · rw [conflict, if_neg beyond, if_pos taken]
    · obtain ⟨⟨_, held⟩, mem, rfl⟩ := List.mem_map.1 taken
      rw [register, entry_eq_ok_iff.1 ((h.entry _ held).2 mem)]
  · have free := getElem?_eq_some_none h (Nat.not_le.1 beyond) taken
    have registered : table.register id entry = .ok _ := register_eq_ok_iff.2 ⟨free, rfl⟩
    refine .inr ⟨?_, _, registered, (size_register registered).trans h.size, fun other found => ?_⟩
    · rw [conflict, if_neg beyond, if_neg taken]
    rw [List.mem_append, List.mem_singleton, Prod.mk.injEq]
    by_cases same : other = id
    · subst same
      rw [entry_register_self registered]
      constructor
      · rintro ⟨⟩
        exact .inr ⟨rfl, rfl⟩
      · rintro (mem | ⟨_, rfl⟩)
        · exact absurd (List.mem_map_of_mem mem) taken
        · rfl
    · rw [entry_register_of_ne registered same, h.entry]
      simp [same]

/-! ## Calls one after another -/

/-- A call of `register`: its answer, and the table afterwards. A call that fails makes no table, so
the table is the one from before. -/
def attempt (table : Table) (type : TypeId × Entry) : Except MachineError Unit × Table :=
  match table.register type.1 type.2 with
  | .ok changed => (.ok (), changed)
  | .error error => (.error error, table)

/-- The table after calls. -/
def after (table : Table) (calls : List (TypeId × Entry)) : Table :=
  calls.foldl (fun table type => (table.attempt type).2) table

/-- The answers to calls. -/
def answers (table : Table) : List (TypeId × Entry) → List (Except MachineError Unit)
  | [] => []
  | type :: calls => (table.attempt type).1 :: (table.attempt type).2.answers calls

/-- The types whose calls succeed, in the order of the calls. -/
def accepted (table : Table) (calls : List (TypeId × Entry)) : List (TypeId × Entry) :=
  ((calls.zip (table.answers calls)).filter fun call => call.2.isOk).map Prod.fst

variable {calls later : List (TypeId × Entry)} {type first second : TypeId × Entry}

theorem after_append (table : Table) (calls later : List (TypeId × Entry)) :
    table.after (calls ++ later) = (table.after calls).after later := List.foldl_append

theorem answers_append (table : Table) (calls later : List (TypeId × Entry)) :
    table.answers (calls ++ later) = table.answers calls ++ (table.after calls).answers later := by
  induction calls generalizing table with
  | nil => rfl
  | cons type calls ih => exact congrArg (_ :: ·) (ih (table.attempt type).2)

theorem length_answers (table : Table) (calls : List (TypeId × Entry)) :
    (table.answers calls).length = calls.length := by
  induction calls generalizing table with
  | nil => rfl
  | cons type calls ih => exact congrArg Nat.succ (ih (table.attempt type).2)

theorem accepted_append (table : Table) (calls later : List (TypeId × Entry)) :
    table.accepted (calls ++ later) = table.accepted calls ++ (table.after calls).accepted later := by
  rw [accepted, answers_append, List.zip_append (length_answers table calls).symm,
    List.filter_append, List.map_append]
  rfl

/-- A call on a table that holds given types, decided by these. -/
theorem attempt_decided (h : table.HoldsOnly numTypes types) (type : TypeId × Entry) :
    (∃ error, conflict numTypes types type = some error ∧
      table.attempt type = (.error error, table)) ∨
    conflict numTypes types type = none ∧ ∃ changed, table.attempt type = (.ok (), changed) ∧
      changed.HoldsOnly numTypes (types ++ [type]) := by
  rcases register_decided h type with ⟨error, met, refused⟩ | ⟨clear, changed, ok, holds⟩
  · exact .inl ⟨error, met, by rw [attempt, refused]⟩
  · exact .inr ⟨clear, changed, by rw [attempt, ok], holds⟩

/-- **A table holds the types whose calls succeeded**, each under its own identity. -/
theorem holdsOnly_after (numTypes : Nat) (calls : List (TypeId × Entry)) :
    ((ofSize numTypes).after calls).HoldsOnly numTypes ((ofSize numTypes).accepted calls) ∧
      (((ofSize numTypes).accepted calls).map Prod.fst).Nodup := by
  induction calls using List.reverseRecOn with
  | nil => exact ⟨holdsOnly_ofSize numTypes, List.nodup_nil⟩
  | append_singleton calls type ih =>
    obtain ⟨holds, distinct⟩ := ih
    have step : ((ofSize numTypes).after calls).after [type] =
        (((ofSize numTypes).after calls).attempt type).2 := rfl
    rw [after_append, accepted_append, step]
    rcases attempt_decided holds type with ⟨error, _, refused⟩ | ⟨clear, changed, ok, more⟩
    · have none : ((ofSize numTypes).after calls).accepted [type] = [] := by
        simp [accepted, answers, refused, Except.isOk, Except.toBool]
      rw [refused, none, List.append_nil]
      exact ⟨holds, distinct⟩
    · have one : ((ofSize numTypes).after calls).accepted [type] = [type] := by
        simp [accepted, answers, ok, Except.isOk, Except.toBool]
      rw [ok, one]
      refine ⟨more, ?_⟩
      rw [List.map_append, List.map_singleton, List.nodup_append_comm]
      exact List.nodup_cons.2 ⟨((conflict_eq_none_iff _ _).1 clear).2, distinct⟩

/-! ## What a call touches -/

/-- A call fills the place of its identity if that is free. -/
theorem entries_attempt (table : Table) (type : TypeId × Entry) :
    (table.attempt type).2.entries = table.entries.modify type.1.index (·.or (some type.2)) := by
  apply Array.ext_getElem?
  intro index
  rw [Array.getElem?_modify, attempt, register]
  cases place : table.entries[type.1.index]? with
  | none =>
    split_ifs with same
    · rw [← same, place]
      rfl
    · rfl
  | some held =>
    cases held with
    | some entry =>
      split_ifs with same
      · rw [← same, place]
        rfl
      · rfl
    | none =>
      have inside : type.1.index < table.entries.size := (Array.getElem?_eq_some_iff.1 place).1
      show (table.entries.setIfInBounds type.1.index (some type.2))[index]? = _
      rw [Array.getElem?_setIfInBounds, if_pos inside]
      split_ifs with same
      · rw [← same, place]
        rfl
      · rfl

/-- The answer depends on that place alone, and on the number of places. -/
theorem answer_attempt (table : Table) (type : TypeId × Entry) :
    (table.attempt type).1 =
      match table.entries[type.1.index]? with
      | none => .error (.beyondTable type.1 table.size)
      | some (some _) => .error (.registeredTwice type.1)
      | some none => .ok () := by
  rw [attempt, register]
  rcases table.entries[type.1.index]? with _ | _ | entry <;> rfl

theorem size_attempt (table : Table) (type : TypeId × Entry) :
    (table.attempt type).2.size = table.size := by
  rw [size, entries_attempt, Array.size_modify]
  rfl

/-- A call makes no difference to the answer to one with another identity. -/
theorem answer_attempt_of_ne (table : Table) (apart : first.1 ≠ second.1) :
    ((table.attempt first).2.attempt second).1 = (table.attempt second).1 := by
  have places : first.1.index ≠ second.1.index := fun same => apart (TypeId.ext_index same)
  rw [answer_attempt, answer_attempt table, size_attempt, entries_attempt, Array.getElem?_modify,
    if_neg places]

theorem attempt_comm (table : Table) (apart : first.1 ≠ second.1) :
    ((table.attempt first).2.attempt second).2 = ((table.attempt second).2.attempt first).2 := by
  have places : first.1.index ≠ second.1.index := fun same => apart (TypeId.ext_index same)
  have same : ((table.attempt first).2.attempt second).2.entries =
      ((table.attempt second).2.attempt first).2.entries := by
    apply Array.ext_getElem?
    intro index
    simp only [entries_attempt, Array.getElem?_modify]
    split_ifs with here there
    · exact absurd (there.trans here.symm) places
    · rfl
    · rfl
    · rfl
  exact congrArg Table.mk same

/-! ## The list of what is registered -/

/-- All types are in places that an identity has. -/
def Addressed (table : Table) : Prop :=
  ∀ index entry, table.entries[index]? = some (some entry) → ∃ id : TypeId, id.index = index

theorem addressed_ofSize (numTypes : Nat) : (ofSize numTypes).Addressed := by
  intro index entry held
  simp [ofSize, Array.getElem?_replicate] at held

theorem Addressed.attempt (addressed : table.Addressed) (type : TypeId × Entry) :
    (table.attempt type).2.Addressed := by
  intro index entry held
  rw [entries_attempt, Array.getElem?_modify] at held
  split_ifs at held with same
  · exact ⟨type.1, same⟩
  · exact addressed index entry held

theorem Addressed.after (addressed : table.Addressed) (calls : List (TypeId × Entry)) :
    (table.after calls).Addressed := by
  induction calls generalizing table with
  | nil => exact addressed
  | cons type calls ih => exact ih (addressed.attempt type)

theorem mem_zipIdx_iff {slot : Option Entry} {index : Nat} :
    (slot, index) ∈ table.entries.toList.zipIdx ↔ table.entries[index]? = some slot := by
  rw [List.mk_mem_zipIdx_iff_getElem?, Array.getElem?_toList]

/-- A type is listed with an identity if its place is that of the identity. -/
theorem listed_iff (addressed : table.Addressed) {index : Nat} {slot : Option Entry}
    (place : table.entries[index]? = some slot) {type : TypeId × Entry} :
    (slot.map fun entry => ((⟨.ofNat index⟩ : TypeId), entry)) = some type ↔
      slot = some type.2 ∧ type.1.index = index := by
  obtain ⟨id, entry⟩ := type
  cases slot with
  | none => simp
  | some held =>
    obtain ⟨own, rfl⟩ := addressed index held place
    have same : (⟨.ofNat own.index⟩ : TypeId) = own := congrArg TypeId.mk UInt32.ofNat_toNat
    simp only [Option.map_some, same, Option.some.injEq, Prod.mk.injEq]
    constructor
    · rintro ⟨rfl, rfl⟩
      exact ⟨rfl, rfl⟩
    · rintro ⟨rfl, index⟩
      exact ⟨TypeId.ext_index index.symm, rfl⟩

theorem mem_toList_iff (addressed : table.Addressed) {type : TypeId × Entry} :
    type ∈ table.toList ↔ table.entry type.1 = .ok type.2 := by
  rw [toList, List.mem_filterMap, entry_eq_ok_iff]
  constructor
  · rintro ⟨⟨slot, index⟩, mem, listed⟩
    have place := mem_zipIdx_iff.1 mem
    obtain ⟨rfl, rfl⟩ := (listed_iff addressed place).1 listed
    exact place
  · intro place
    exact ⟨(some type.2, type.1.index), mem_zipIdx_iff.2 place,
      (listed_iff addressed place).2 ⟨rfl, rfl⟩⟩

/-- The list goes through the places from the first to the last. -/
theorem pairwise_toList (addressed : table.Addressed) :
    table.toList.Pairwise fun type other => type.1.index < other.1.index := by
  have places : (table.entries.toList.zipIdx.map Prod.snd).Pairwise (· < ·) := by
    rw [List.zipIdx_map_snd]
    exact List.pairwise_lt_range' 1
  rw [toList, List.pairwise_filterMap]
  refine (List.pairwise_map.1 places).imp_of_mem ?_
  rintro ⟨slot, index⟩ ⟨slot', index'⟩ mem mem' less type listed type' listed'
  have own := (listed_iff addressed (mem_zipIdx_iff.1 mem)).1 listed
  have own' := (listed_iff addressed (mem_zipIdx_iff.1 mem')).1 listed'
  rw [own.2, own'.2]
  exact less

/-- The types that a table holds are listed once each. -/
theorem HoldsOnly.perm_toList (holds : table.HoldsOnly numTypes types)
    (distinct : (types.map Prod.fst).Nodup) (addressed : table.Addressed) :
    table.toList.Perm types := by
  have listed : table.toList.Nodup := by
    refine (pairwise_toList addressed).imp fun less => ?_
    rintro rfl
    exact absurd less (Nat.lt_irrefl _)
  refine (List.perm_ext_iff_of_nodup listed distinct.of_map).2 fun type => ?_
  rw [mem_toList_iff addressed, holds.entry]

/-! ## Write-once maps -/

/-- The table has so many places, and of the calls that were made on it those for the given types
have succeeded, in this order. -/
structure WrittenOnce (table : Table) (numTypes : Nat) (accepted : List (TypeId × Entry)) :
    Prop where
  /-- A further call succeeds just if its identity has a place and none that succeeded had it. -/
  accepts : ∀ type, (table.attempt type).1 = .ok () ↔
    type.1.index < numTypes ∧ ∀ earlier ∈ accepted, earlier.1 ≠ type.1
  refusesBeyond : ∀ type, numTypes ≤ type.1.index →
    (table.attempt type).1 = .error (.beyondTable type.1 numTypes)
  refusesTwice : ∀ type, type.1.index < numTypes → (∃ earlier ∈ accepted, earlier.1 = type.1) →
    (table.attempt type).1 = .error (.registeredTwice type.1)
  unchanged : ∀ type, (table.attempt type).1 ≠ .ok () → (table.attempt type).2 = table
  size : table.size = numTypes
  /-- The entry of an identity is that of the first call for it that succeeded. -/
  found : ∀ id type, accepted.find? (fun call => call.1 = id) = some type →
    table.entry id = .ok type.2
  missing : ∀ id, id.index < numTypes → (∀ type ∈ accepted, type.1 ≠ id) →
    table.entry id = .error (.notRegistered id)
  beyond : ∀ id, numTypes ≤ id.index → table.entry id = .error (.beyondTable id numTypes)
  /-- The list has the registered types once each, in the order of their identities. -/
  listed : table.toList.Perm accepted
  ordered : table.toList.Pairwise fun type other => type.1.index < other.1.index

theorem HoldsOnly.writtenOnce (holds : table.HoldsOnly numTypes types)
    (distinct : (types.map Prod.fst).Nodup) (addressed : table.Addressed) :
    table.WrittenOnce numTypes types := by
  have fresh_iff (id : TypeId) : id ∉ types.map Prod.fst ↔ ∀ type ∈ types, type.1 ≠ id := by
    simp only [List.mem_map, not_exists, not_and, ne_eq]
  constructor
  case accepts =>
    intro type
    rw [← fresh_iff, ← conflict_eq_none_iff]
    rcases attempt_decided holds type with ⟨error, met, refused⟩ | ⟨clear, changed, ok, _⟩
    · simp [met, refused]
    · simp [clear, ok]
  case refusesBeyond =>
    intro type outside
    rw [answer_attempt, getElem?_eq_none holds outside, holds.size]
  case refusesTwice =>
    rintro type inside ⟨earlier, mem, same⟩
    have place := entry_eq_ok_iff.1 ((holds.entry earlier.1 earlier.2).2 mem)
    rw [answer_attempt, ← same, place]
  case unchanged =>
    intro type fails
    rcases attempt_decided holds type with ⟨error, met, refused⟩ | ⟨clear, changed, ok, _⟩
    · rw [refused]
    · rw [ok] at fails
      exact absurd rfl fails
  case size => exact holds.size
  case found =>
    intro id type first
    have same : type.1 = id := by simpa using List.find?_some first
    rw [← same, holds.entry]
    exact List.mem_of_find?_eq_some first
  case missing =>
    intro id inside fresh
    rw [holds.entry_eq_error ((fresh_iff id).2 fresh), if_pos inside]
  case beyond =>
    intro id outside
    rw [Table.entry, getElem?_eq_none holds outside, holds.size]
  case listed => exact holds.perm_toList distinct addressed
  case ordered => exact pairwise_toList addressed

/-- **A table is a write-once map.** Whatever calls were made on a table with so many places, it is
what those that succeeded have made of it, each the first one for its identity. Two calls one after
the other with different identities can change places: they are answered alike, and so are all
others, and the table ends up the same. -/
theorem writes_once (numTypes : Nat) (calls : List (TypeId × Entry)) :
    ((ofSize numTypes).after calls).WrittenOnce numTypes ((ofSize numTypes).accepted calls) ∧
    ∀ first second later, first.1 ≠ second.1 → ∃ front answer other back,
      front.length = calls.length ∧
      (ofSize numTypes).answers (calls ++ first :: second :: later) =
        front ++ answer :: other :: back ∧
      (ofSize numTypes).answers (calls ++ second :: first :: later) =
        front ++ other :: answer :: back ∧
      (ofSize numTypes).after (calls ++ first :: second :: later) =
        (ofSize numTypes).after (calls ++ second :: first :: later) := by
  obtain ⟨holds, distinct⟩ := holdsOnly_after numTypes calls
  have addressed := (addressed_ofSize numTypes).after calls
  refine ⟨holds.writtenOnce distinct addressed, fun first second later apart => ?_⟩
  have same := attempt_comm ((ofSize numTypes).after calls) apart
  refine ⟨_, _, _, _, length_answers _ calls, answers_append _ calls _, ?_, ?_⟩
  · rw [answers_append, answers, answers, answer_attempt_of_ne _ apart,
      answer_attempt_of_ne _ apart.symm, same]
  · rw [after_append, after_append]
    exact congrArg (·.after later) same

/-- A second call for an identity, one for an identity beyond the table, and one out of order. -/
example (a b c d : Entry) :
    let calls := [(⟨1⟩, a), (⟨1⟩, b), (⟨2⟩, c), (⟨0⟩, d)]
    (ofSize 2).answers calls =
      [.ok (), .error (.registeredTwice ⟨1⟩), .error (.beyondTable ⟨2⟩ 2), .ok ()] ∧
    ((ofSize 2).after calls).toList = [(⟨0⟩, d), (⟨1⟩, a)] := ⟨rfl, rfl⟩

end BoxedValues.Table
