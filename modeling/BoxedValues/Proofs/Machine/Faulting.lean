import BoxedValues.Proofs.Machine.Nesting
import BoxedValues.Proofs.Text.Rendering

/-!
# How actions can end without a result

`Exec.Faults P` says that an action has a result, from whatever state it is begun, or ends in a fault
with the property `P`; without such faults it always has a result (`Exec.FaultsAt.ok`).

* `Engine.ElementFault`: a fault of the text, the hash or the equality of an element. Everything that
  goes through the elements of an array ends in no other fault;
* `Engine.Reliable`: all methods in the type table end in no other faults than those with a property.
  Everything that is dispatched through the table then does so too.
-/

set_option autoImplicit false

namespace BoxedValues

namespace Exec

variable {α β ι : Type} {P Q : Fault → Prop} {action : Exec α} {before middle : State}

/-- Begun in this state, the action ends in no other faults. -/
def FaultsAt (P : Fault → Prop) (action : Exec α) (before : State) : Prop :=
  ∀ fault after, action before = .error fault after → P fault

/-- The action ends in no other faults. -/
def Faults (P : Fault → Prop) (action : Exec α) : Prop := ∀ before, action.FaultsAt P before

/-- An action without any faults has a result. -/
theorem FaultsAt.ok (h : action.FaultsAt (fun _ => False) before) :
    ∃ result after, action before = .ok result after := by
  cases ran : action before with
  | ok result after => exact ⟨result, after, rfl⟩
  | error fault after => exact (h fault after ran).elim

theorem FaultsAt.mono (h : action.FaultsAt P before) (implies : ∀ fault, P fault → Q fault) :
    action.FaultsAt Q before := fun fault after ran => implies fault (h fault after ran)

theorem Faults.mono (h : action.Faults P) (implies : ∀ fault, P fault → Q fault) :
    action.Faults Q := fun before => (h before).mono implies

theorem faultsAt_of_ok {result : α} (h : action before = .ok result middle) :
    action.FaultsAt P before := by
  intro fault after ran
  rw [h] at ran
  cases ran

theorem faults_pure (result : α) : Faults P (pure result) := fun _ => faultsAt_of_ok rfl

theorem faults_throw {fault : Fault} (property : P fault) : Faults P (throw fault : Exec α) := by
  rintro before _ _ ⟨⟩
  exact property

theorem faultsAt_bind {next : α → Exec β} (first : action.FaultsAt P before)
    (rest : ∀ result middle, action before = .ok result middle → (next result).FaultsAt P middle) :
    (action >>= next).FaultsAt P before := by
  intro fault after ran
  cases start : action before with
  | ok result middle =>
    rw [bind_ok start] at ran
    exact rest result middle start fault after ran
  | error reason last =>
    rw [bind_error start] at ran
    cases ran
    exact first _ _ start

theorem faults_bind {next : α → Exec β} (first : action.Faults P)
    (rest : ∀ result, (next result).Faults P) : (action >>= next).Faults P :=
  fun before => faultsAt_bind (first before) fun result middle _ => rest result middle

/-- Of a first part with a result only the result matters. -/
theorem faultsAt_bind_ok {next : α → Exec β} {result : α} (h : action before = .ok result middle)
    (rest : (next result).FaultsAt P middle) : (action >>= next).FaultsAt P before := by
  intro fault after ran
  rw [bind_ok h] at ran
  exact rest fault after ran

theorem faults_mapM {f : ι → Exec α} (items : List ι) (each : ∀ item ∈ items, (f item).Faults P) :
    (items.mapM f).Faults P := by
  induction items with
  | nil => exact faults_pure []
  | cons item items ih =>
    rw [List.mapM_cons]
    refine faults_bind (each item (.head items)) fun _ => ?_
    exact faults_bind (ih fun item mem => each item (.tail _ mem)) fun _ => faults_pure _

theorem faults_box (value : Ref) : Faults P (box value) := fun _ => faultsAt_of_ok rfl

theorem faults_payload (value : Ref) : Faults P (payload value) := fun _ => faultsAt_of_ok rfl

theorem faults_typeId (value : Ref) : Faults P (typeId value) := fun _ => faultsAt_of_ok rfl

theorem faults_bytesOf (value : Ref) : Faults P (bytesOf value) := fun _ => faultsAt_of_ok rfl

theorem faults_alloc (box : Box) : Faults P (alloc box) := fun _ => faultsAt_of_ok rfl

theorem faults_attempt (h : action.Faults P) : (attempt action).Faults P := by
  intro before fault after ran
  unfold attempt at ran
  split at ran
  · cases ran
  · cases ran
  · rename_i inner
    cases ran
    exact h _ _ _ inner

theorem faults_marking {κ : Type} [DecidableEq κ] (list : MarkList κ) (key : κ)
    (h : action.Faults P) : (marking list key action).Faults P := by
  intro before fault after ran
  unfold marking at ran
  split at ran
  · cases ran
  · split at ran
    · cases ran
    · rename_i inner
      cases ran
      exact h _ _ _ inner
    · rename_i inner
      cases ran
      exact h _ _ _ inner

/-- Errors are among the faults that are meant. -/
def AllowsErrors (P : Fault → Prop) : Prop := ∀ error, P (.error error)

section

variable (errors : AllowsErrors P)

include errors

theorem faults_fail (error : MachineError) : Faults P (fail error : Exec α) :=
  faults_throw (errors error)

theorem faults_ofExcept (outcome : Except MachineError α) : Faults P (ofExcept outcome) := by
  cases outcome with
  | ok result => exact faults_pure result
  | error error => exact faults_fail errors error

theorem faults_write (pieces : List Bytes) : Faults P (write pieces) := by
  intro before fault after ran
  unfold write at ran
  split at ran
  · cases ran
  · cases ran
    exact errors _

end

end Exec

open Exec

variable {P : Fault → Prop}

/-! ## Making and changing values -/

namespace Machine

variable (machine : Machine)

theorem faults_newString (bytes : Bytes) : Faults P (machine.newString bytes) := faults_alloc _

theorem faults_newText (text : List Char) : Faults P (machine.newText text) := faults_alloc _

theorem faults_newArray (items : List Ref) : Faults P (machine.newArray items) := faults_alloc _

theorem faults_newTexts (texts : List (List Char)) : Faults P (machine.newTexts texts) :=
  faults_bind (faults_mapM texts fun text _ => machine.faults_newText text) machine.faults_newArray

theorem faults_push (array item : Ref) : Faults P (machine.push array item) := by
  refine faults_bind (faults_payload array) fun payload => ?_
  split
  · exact fun _ => faultsAt_of_ok rfl
  · exact faults_pure ()

end Machine

/-! ## Going through elements -/

namespace Engine

variable (engine : Engine)

/-- The fault is one of the text or the hash of one of the items, or of the comparison of an item with
some value. -/
inductive ElementFault (items : List Ref) (fault : Fault) : Prop where
  | text {item : Ref} {before after : State} :
      item ∈ items → engine.textOf item before = .error fault after → ElementFault items fault
  | equal {item other : Ref} {before after : State} :
      item ∈ items → engine.areEqual item other before = .error fault after →
        ElementFault items fault
  | hash {item : Ref} {before after : State} :
      item ∈ items → engine.hashOf item before = .error fault after → ElementFault items fault

theorem faults_texts (items : List Ref) : Faults (engine.ElementFault items) (engine.texts items) := by
  apply faults_mapM
  intro item mem
  exact faults_bind (fun _ _ _ ran => .text mem ran) faults_bytesOf

theorem faults_hashes (items : List Ref) :
    Faults (engine.ElementFault items) (engine.hashes items) :=
  faults_mapM items fun _ mem _ _ _ ran => .hash mem ran

theorem faults_equalPairs {items : List Ref} (pairs : List (Ref × Ref))
    (among : ∀ pair ∈ pairs, pair.1 ∈ items) :
    Faults (engine.ElementFault items) (engine.equalPairs pairs) := by
  induction pairs with
  | nil => exact faults_pure true
  | cons pair rest ih =>
    refine faults_bind (fun _ _ _ ran => .equal (among pair (.head rest)) ran) fun same => ?_
    split
    · exact ih fun pair mem => among pair (.tail _ mem)
    · exact faults_pure false

theorem faults_equalsAny {items : List Ref} (target : Ref) (values : List Ref) (among : values ⊆ items) :
    Faults (engine.ElementFault items) (engine.equalsAny target values) := by
  induction values with
  | nil => exact faults_pure false
  | cons value rest ih =>
    refine faults_bind (fun _ _ _ ran => .equal (among (.head rest)) ran) fun same => ?_
    split
    · exact faults_pure true
    · exact ih fun _ mem => among (.tail _ mem)

theorem faults_dedupe {items : List Ref} (kept : List (Int64 × Ref)) (rest : List Ref)
    (keptAmong : kept.map (·.2) ⊆ items) (among : rest ⊆ items) :
    Faults (engine.ElementFault items) (engine.dedupe kept rest) := by
  induction rest generalizing kept with
  | nil => exact faults_pure _
  | cons item rest ih =>
    have itemMem : item ∈ items := among (.head rest)
    have restAmong : rest ⊆ items := fun _ mem => among (.tail _ mem)
    refine faults_bind (fun _ _ _ ran => .hash itemMem ran) fun hash => ?_
    have rivals : (kept.filter fun entry => entry.1 == hash).map (·.2) ⊆ items :=
      fun _ mem => keptAmong (List.map_subset _ (List.filter_subset_self _) mem)
    refine faults_bind (engine.faults_equalsAny item _ rivals) fun duplicate => ?_
    split
    · exact ih kept keptAmong restAmong
    · refine ih _ ?_ restAmong
      rw [List.map_append]
      exact List.append_subset.2 ⟨keptAmong, by simpa using itemMem⟩

theorem faults_newBracketed {texts : List Bytes} (filled : texts ≠ []) :
    Faults P (engine.newBracketed texts) := by
  rw [newBracketed_eq filled]
  exact engine.machine.faults_newString _

theorem faults_arrayText (array : Ref) (items : List Ref) :
    Faults (engine.ElementFault items) (engine.arrayText array items) := by
  unfold arrayText
  split
  · exact engine.machine.faults_newString _
  · rename_i filled
    intro before
    apply faultsAt_bind (faults_marking textMarks array (engine.faults_texts items) before)
    intro texts middle ran
    cases texts with
    | none => exact engine.machine.faults_newString _ middle
    | some texts =>
      obtain ⟨begun, last, made⟩ := of_marking_some ran
      refine engine.faults_newBracketed (fun empty => filled ?_) middle
      rw [List.isEmpty_iff, ← List.length_eq_zero_iff, ← length_of_mapM made, empty]
      rfl

theorem faults_arraysEqual (first second : Ref) (items others : List Ref) :
    Faults (engine.ElementFault items) (engine.arraysEqual first second items others) := by
  refine faults_bind (faults_marking equalityMarks _ ?_) fun _ => faults_pure _
  split
  · exact faults_pure false
  · exact engine.faults_equalPairs _ fun pair mem => (List.of_mem_zip mem).1

theorem faults_hashElements (array : Ref) (items : List Ref) :
    Faults (engine.ElementFault items) (engine.hashElements array items) := by
  refine faults_bind (faults_marking hashMarks array (engine.faults_hashes items)) fun hashes => ?_
  split
  · exact faults_pure _
  · exact faults_pure _

/-! ## Dispatch through the type table -/

/-- All methods of the type table end in no other faults. -/
def Reliable (P : Fault → Prop) : Prop :=
  ∀ id entry slot method args, engine.machine.table.entry id = .ok entry →
    entry.method? slot = some method → Faults P (engine.invoke method args)

/-- A method of the table is invoked, and its result is looked into. -/
theorem Reliable.faults_invoke_box {α : Type} {engine : Engine} {next : Ref → Box → Exec α}
    {id : TypeId} {entry : Entry} {slot : Nat} {method : Method} {args : List Ref}
    (reliable : engine.Reliable P) (registered : engine.machine.table.entry id = .ok entry)
    (found : entry.method? slot = some method) (rest : ∀ result box, (next result box).Faults P) :
    (engine.invoke method args >>= fun result => Exec.box result >>= next result).Faults P :=
  faults_bind (reliable id entry slot method args registered found) fun result =>
    faults_bind (faults_box result) (rest result)

section

variable {engine} (errors : AllowsErrors P) (reliable : engine.Reliable P)

include errors

theorem faults_entryOf (value : Ref) : Faults P (engine.entryOf value) :=
  faults_bind (faults_typeId value) fun _ => faults_ofExcept errors _

/-- What follows the look at a value's type need only be looked at for entries of the table. -/
theorem faults_entryOf_bind {α : Type} {next : Entry → Exec α} (value : Ref)
    (rest : ∀ id entry, engine.machine.table.entry id = .ok entry → (next entry).Faults P) :
    (engine.entryOf value >>= next).Faults P := by
  intro before
  apply faultsAt_bind (faults_entryOf errors value before)
  intro entry middle ran
  unfold entryOf at ran
  rw [bind_ok (typeId_ok value before)] at ran
  cases found : engine.machine.table.entry (before.heap.get value).typeId with
  | ok registered =>
    rw [found] at ran
    cases ran
    exact rest _ entry found before
  | error error =>
    rw [found] at ran
    cases ran

include reliable

theorem faults_textOf (value : Ref) : Faults P (engine.textOf value) := by
  apply faults_entryOf_bind errors value
  intro id entry registered
  split
  · exact faults_fail errors _
  · rename_i method found
    refine reliable.faults_invoke_box registered found fun result box => ?_
    split
    · exact faults_pure _
    · exact faults_fail errors _

theorem faults_areEqual (first second : Ref) : Faults P (engine.areEqual first second) := by
  unfold areEqual
  split
  · exact faults_pure true
  · refine faults_bind (faults_typeId first) fun type => ?_
    refine faults_bind (faults_typeId second) fun other => ?_
    split
    · exact faults_pure false
    · apply faults_entryOf_bind errors first
      intro id entry registered
      split
      · exact faults_pure false
      · rename_i method found
        refine reliable.faults_invoke_box registered found fun result box => ?_
        split
        · exact faults_pure _
        · exact faults_fail errors _

theorem faults_hashOf (value : Ref) : Faults P (engine.hashOf value) := by
  apply faults_entryOf_bind errors value
  intro id entry registered
  split
  · exact faults_pure _
  · rename_i method found
    refine reliable.faults_invoke_box registered found fun result box => ?_
    split
    · exact faults_pure _
    · exact faults_fail errors _

theorem faults_send (slot : Nat) (args : List Ref) : Faults P (engine.send slot args) := by
  unfold send
  split
  · exact faults_fail errors _
  · apply faults_entryOf_bind errors
    intro id entry registered
    split
    · rename_i method found
      exact reliable id entry slot method _ registered found
    · exact faults_fail errors _

theorem faults_sendAs (type : TypeId) (slot : Nat) (args : List Ref) :
    Faults P (engine.sendAs type slot args) := by
  unfold sendAs
  cases registered : engine.machine.table.entry type with
  | error error =>
    rintro before _ _ ⟨⟩
    exact errors error
  | ok entry =>
    show Faults P (pure entry >>= _)
    rw [pure_bind]
    split
    · rename_i method found
      exact reliable type entry slot method args registered found
    · exact faults_fail errors _

theorem ElementFault.property {items : List Ref} {fault : Fault}
    (h : engine.ElementFault items fault) : P fault := by
  cases h with
  | text _ ran => exact faults_textOf errors reliable _ _ _ _ ran
  | equal _ ran => exact faults_areEqual errors reliable _ _ _ _ _ ran
  | hash _ ran => exact faults_hashOf errors reliable _ _ _ _ ran

theorem faults_printLine (values : List Ref) : Faults P (engine.printLine values) := by
  refine faults_bind ?_ fun _ => faults_write errors _
  exact (engine.faults_texts values).mono fun _ fault => fault.property errors reliable

end

end Engine

end BoxedValues
