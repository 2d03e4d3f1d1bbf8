import BoxedValues.Proofs.Hash.Digesting
import BoxedValues.Proofs.Text.Rendering

/-!
# Marks are released

An array is marked while its text, its hash or its equality is being worked out, and methods of any
kind may be run meanwhile. `marks_released` says that every call which returns, with a result or
with an error, leaves the marks that it found. So there are none between calls from outside, and the
text, the equality and the hash of values of builtin types do not depend on what was called before.
-/

set_option autoImplicit false

namespace BoxedValues

/-- The marks are the same. -/
def State.SameMarks (before after : State) : Prop := after.marks = before.marks

/-- Every call on the engine that returns leaves the marks that it found. -/
structure Engine.Releases (engine : Engine) : Prop where
  text : ∀ value, (engine.textOf value).Keeps State.SameMarks
  equal : ∀ a b, (engine.areEqual a b).Keeps State.SameMarks
  hash : ∀ value, (engine.hashOf value).Keeps State.SameMarks
  send : ∀ slot args, (engine.send slot args).Keeps State.SameMarks
  method : ∀ method args, (engine.invoke method args).Keeps State.SameMarks
  print : ∀ values, (engine.printLine values).Keeps State.SameMarks

namespace Machine

variable {machine : Machine} {before after : State} {a b value : Ref}

/-- Calls release their marks however deeply they are nested. -/
theorem releases_engine (machine : Machine) (depth : Nat) : (machine.engine depth).Releases := by
  have invoke := machine.keeps_invoke frame_marks depth
  exact {
    text := Engine.keeps_textOf frame_marks _ invoke
    equal := Engine.keeps_areEqual frame_marks _ invoke
    hash := Engine.keeps_hashOf frame_marks _ invoke
    send := Engine.keeps_send frame_marks _ invoke
    method := invoke
    print := Engine.keeps_printLine frame_marks _ invoke }

/-- The machine gives the value this text. -/
def GivesText (machine : Machine) (state : State) (value : Ref) (bytes : Bytes) : Prop :=
  ∃ ref after, machine.textOf value state = .ok ref after ∧
    (after.heap.get ref).payload = .string bytes

/-- The machine finds this of the equality of the values. -/
def GivesVerdict (machine : Machine) (state : State) (a b : Ref) (verdict : Bool) : Prop :=
  ∃ after, machine.areEqual a b state = .ok verdict after

/-- The machine gives the value this hash. -/
def GivesHash (machine : Machine) (state : State) (value : Ref) (hash : Int64) : Prop :=
  ∃ after, machine.hashOf value state = .ok hash after

section

variable (live : machine.Live before) (runs : machine.Runs before after)

include live runs

/-- A value of builtin types that is unchanged has its text from before. -/
theorem same_text (carries : before.heap.Carries after.heap machine.IsBuiltin value) :
    ∃ bytes, machine.GivesText before value bytes ∧ machine.GivesText after value bytes := by
  have same := runs.related frame_marks
  have fits := (runs.related frame_persists).size_le
  obtain ⟨ref, first, ran, _, isText⟩ := gives_textOf live (Nat.le_refl _) carries.within.carries
  obtain ⟨ref', second, ran', _, isText'⟩ := gives_textOf (live.runs runs) fits carries
  rw [same] at isText'
  exact ⟨_, ⟨ref, first, ran, isText⟩, ref', second, ran', isText'⟩

/-- Values of builtin types that are unchanged are as equal as before. -/
theorem same_verdict (carries : before.heap.Carries after.heap machine.IsBuiltin a)
    (carries' : before.heap.Carries after.heap machine.IsBuiltin b) :
    ∃ verdict, machine.GivesVerdict before a b verdict ∧ machine.GivesVerdict after a b verdict := by
  have same := runs.related frame_marks
  have fits := (runs.related frame_persists).size_le
  have first := carries.mono fun _ builtin => builtin.ordinary [.equal]
  have second := carries'.mono fun _ builtin => builtin.ordinary [.equal]
  obtain ⟨verdict, last, ran, _, found⟩ :=
    gives_areEqual live (Nat.le_refl _) first.within.carries second.within.carries
  obtain ⟨verdict', last', ran', _, found'⟩ := gives_areEqual (live.runs runs) fits first second
  rw [same, ← found] at found'
  subst found'
  exact ⟨verdict', ⟨last, ran⟩, last', ran'⟩

/-- A value of builtin types that is unchanged has its hash from before. -/
theorem same_hash (carries : before.heap.Carries after.heap machine.IsBuiltin value) :
    ∃ hash, machine.GivesHash before value hash ∧ machine.GivesHash after value hash := by
  have same := runs.related frame_marks
  have fits := (runs.related frame_persists).size_le
  have hashable := carries.mono fun _ builtin => builtin.ordinary [.hash]
  obtain ⟨hash, last, ran, _, found⟩ := gives_hashOf live (Nat.le_refl _) hashable.within.carries
  obtain ⟨hash', last', ran', _, found'⟩ := gives_hashOf (live.runs runs) fits hashable
  rw [same, ← found] at found'
  subst found'
  exact ⟨hash', ⟨last, ran⟩, last', ran'⟩

end

/-- **Marks are always released.** Whatever methods are registered and whatever the marks are, a
call that returns leaves the marks as they were, and so does any sequence of operations from
outside. On a machine that began without marks there are none between the operations, and the text,
the equality and the hash of values of builtin types whose boxes did not change are what they were
before, whatever happened in between. -/
theorem marks_released (machine : Machine) :
    (∀ depth, (machine.engine depth).Releases) ∧
    (∀ before after, machine.Runs before after → after.marks = before.marks) ∧
    ∀ start before after, machine.Assembled start → machine.Runs start before →
      machine.Runs before after → after.marks = .none ∧
        ∀ a b, before.heap.Carries after.heap machine.IsBuiltin a →
          before.heap.Carries after.heap machine.IsBuiltin b →
            (∃ bytes, machine.GivesText before a bytes ∧ machine.GivesText after a bytes) ∧
            (∃ verdict, machine.GivesVerdict before a b verdict ∧
              machine.GivesVerdict after a b verdict) ∧
            ∃ hash, machine.GivesHash before a hash ∧ machine.GivesHash after a hash := by
  refine ⟨machine.releases_engine, fun before after runs => runs.related frame_marks, ?_⟩
  intro start before after assembled earlier runs
  have live := (live_of_assembled assembled).runs earlier
  have idle : before.marks = .none :=
    (earlier.related frame_marks).trans (marks_of_assembled assembled)
  refine ⟨(runs.related frame_marks).trans idle, fun a b first second => ⟨?_, ?_, ?_⟩⟩
  · exact same_text live runs first
  · exact same_verdict live runs first second
  · exact same_hash live runs first

/-- A call that fails and a new value change nothing about rings. -/
theorem marks_released_rings : ∃ after, bare.Runs ringState after ∧ after.marks = .none ∧
    (∃ bytes, bare.GivesText ringState ⟨6⟩ bytes ∧ bare.GivesText after ⟨6⟩ bytes) ∧
    (∃ verdict, bare.GivesVerdict ringState ⟨6⟩ ⟨7⟩ verdict ∧
      bare.GivesVerdict after ⟨6⟩ ⟨7⟩ verdict) ∧
    ∃ hash, bare.GivesHash ringState ⟨6⟩ hash ∧ bare.GivesHash after ⟨6⟩ hash := by
  let box : Box := ⟨bare.ids.int, .int 7⟩
  let after : State := { ringState with heap := (ringState.heap.alloc box).2 }
  have failed : bare.Step ringState ringState := .request (.call 99 [⟨6⟩]) (.inl ⟨_, rfl⟩)
  have runs : bare.Runs ringState after :=
    .tail (.single failed) (.request (.int 7) (.inl ⟨_, rfl⟩))
  obtain ⟨idle, same⟩ :=
    (marks_released bare).2.2 bareState ringState after assembled_bare runs_ringState runs
  have carries {value : Ref} (h : value ∈ rings) :
      ringState.heap.Carries after.heap bare.IsBuiltin value :=
    (within_rings h).carries.extends (Heap.extends_alloc ringState.heap box)
  exact ⟨after, runs, idle, same ⟨6⟩ ⟨7⟩ (carries (by decide)) (carries (by decide))⟩

end Machine

end BoxedValues
