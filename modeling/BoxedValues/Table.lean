import BoxedValues.Method.Basic

/-!
# The type table

Reference model of `VTable`: `init`, `len`, `register`, `entry` and `iter`. A table has a fixed
number of places, one for each type identity. A place is filled once and never changes after that:
the table is a write-once map.
-/

set_option autoImplicit false

namespace BoxedValues

/-- The registered types by identity. -/
structure Table where
  entries : Array (Option Entry)

namespace Table

/-- A table with room for so many types, none registered. -/
def ofSize (numTypes : Nat) : Table := ⟨.replicate numTypes none⟩

/-- The number of places. -/
def size (table : Table) : Nat := table.entries.size

/-- The table with one more type. -/
def register (table : Table) (id : TypeId) (entry : Entry) : Except MachineError Table :=
  match table.entries[id.index]? with
  | none => .error (.beyondTable id table.size)
  | some (some _) => .error (.registeredTwice id)
  | some none => .ok ⟨table.entries.setIfInBounds id.index (some entry)⟩

/-- The type of an identity. -/
def entry (table : Table) (id : TypeId) : Except MachineError Entry :=
  match table.entries[id.index]? with
  | none => .error (.beyondTable id table.size)
  | some none => .error (.notRegistered id)
  | some (some entry) => .ok entry

/-- The registered types with their identities, in the order of these. -/
def toList (table : Table) : List (TypeId × Entry) :=
  table.entries.toList.zipIdx.filterMap fun (entry, index) =>
    entry.map fun entry => (⟨.ofNat index⟩, entry)

theorem size_ofSize (numTypes : Nat) : (ofSize numTypes).size = numTypes := by
  simp [ofSize, size]

theorem size_register {table table' : Table} {id : TypeId} {entry : Entry}
    (h : table.register id entry = .ok table') : table'.size = table.size := by
  simp only [register] at h
  split at h <;> simp at h
  subst h
  simp [size]

/-! ## A write-once map -/

theorem register_eq_ok_iff {table changed : Table} {id : TypeId} {entry : Entry} :
    table.register id entry = .ok changed ↔
      table.entries[id.index]? = some none ∧
        changed = ⟨table.entries.setIfInBounds id.index (some entry)⟩ := by
  simp only [register]
  split
  · next h => simp [h]
  · next h => simp [h]
  · next h =>
    simp only [h, Except.ok.injEq, true_and]
    exact eq_comm

theorem entry_eq_ok_iff {table : Table} {id : TypeId} {found : Entry} :
    table.entry id = .ok found ↔ table.entries[id.index]? = some (some found) := by
  simp only [entry]
  split
  · next h => simp [h]
  · next h => simp [h]
  · next h => simp [h]

/-- A registered type is found under its identity. -/
theorem entry_register_self {table changed : Table} {id : TypeId} {entry : Entry}
    (h : table.register id entry = .ok changed) : changed.entry id = .ok entry := by
  obtain ⟨free, rfl⟩ := register_eq_ok_iff.1 h
  rw [entry_eq_ok_iff]
  obtain ⟨inside, _⟩ := Array.getElem?_eq_some_iff.1 free
  show (table.entries.setIfInBounds id.index (some entry))[id.index]? = _
  rw [Array.getElem?_setIfInBounds_self_of_lt inside]

/-- A registration leaves all other identities as they are. -/
theorem entry_register_of_ne {table changed : Table} {id other : TypeId} {entry : Entry}
    (h : table.register id entry = .ok changed) (ne : other ≠ id) :
    changed.entry other = table.entry other := by
  obtain ⟨_, rfl⟩ := register_eq_ok_iff.1 h
  have places : id.index ≠ other.index := fun same => ne (TypeId.ext_index same.symm)
  simp only [Table.entry, size, Array.size_setIfInBounds,
    Array.getElem?_setIfInBounds_ne places]

end Table

end BoxedValues
