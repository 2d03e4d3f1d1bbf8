import BoxedValues.Proofs.Machine.Giving
import BoxedValues.Proofs.Machine.Operations

/-!
# Traversals visit what was there when they began

The methods of arrays that go through the elements run methods of these, and such a method may do
anything, also to the array itself. `Exec.Visits` is a traversal of a fixed list: the items are
taken in order, each in the state in which the one before ended, up to the first fault or the first
answer that decides.

* `Exec.GoesThrough` says that an action visits certain items first and then makes its result of the
  answers, and that all boxes stay as the visits left them;
* `Engine.traversals_take_snapshots`: every traversal of an array visits the elements that it had at
  first, on an engine that runs its methods in any way whatsoever.
-/

set_option autoImplicit false

namespace BoxedValues

/-- The boxes and the output are the same; the marks may differ. -/
structure State.SameBoxes (state other : State) : Prop where
  heap : other.heap = state.heap
  sink : other.sink = state.sink

theorem State.SameBoxes.refl (state : State) : state.SameBoxes state := ⟨rfl, rfl⟩

namespace Exec

variable {α β γ ι κ : Type}

/-- The items are taken one after another. A step may look at the earlier items with their answers.
The visit ends after the last item, at an answer that does not let it go on, or at a fault. -/
inductive Visits (step : List (ι × α) → ι → Exec α) (goesOn : α → Bool) :
    List (ι × α) → State → List ι → List (ι × α) → Option Fault → State → Prop where
  | done (earlier : List (ι × α)) (state : State) : Visits step goesOn earlier state [] [] none state
  | more {earlier visited : List (ι × α)} {state middle last : State} {item : ι} {items : List ι}
      {answer : α} {fault : Option Fault} :
      step earlier item state = .ok answer middle → goesOn answer = true →
        Visits step goesOn (earlier ++ [(item, answer)]) middle items visited fault last →
          Visits step goesOn earlier state (item :: items) ((item, answer) :: visited) fault last
  | decided {earlier : List (ι × α)} {state last : State} {item : ι} (items : List ι) {answer : α} :
      step earlier item state = .ok answer last → goesOn answer = false →
        Visits step goesOn earlier state (item :: items) [(item, answer)] none last
  | failed {earlier : List (ι × α)} {state last : State} {item : ι} (items : List ι)
      {fault : Fault} : step earlier item state = .error fault last →
        Visits step goesOn earlier state (item :: items) [] (some fault) last

/-- How an action ends that makes its result of the answers of a visit. -/
def finished (fault : Option Fault) (last : State) (finish : Exec β) : EStateM.Result Fault State β :=
  match fault with
  | some fault => .error fault last
  | none => finish last

/-- The action visits the items, with no more than marks set or taken off before and after, and then
makes its result of the answers. Nothing that the visits did to any box is undone. -/
def GoesThrough (action : Exec β) (before : State) (items : List ι)
    (step : List (ι × α) → ι → Exec α) (goesOn : α → Bool) (finish : List (ι × α) → Exec β) : Prop :=
  ∃ begun visited fault last middle, before.SameBoxes begun ∧
    Visits step goesOn [] begun items visited fault last ∧ last.SameBoxes middle ∧
      action before = finished fault middle (finish visited) ∧
        last.heap.Extends (action.last before).heap

/-- Wherever it begins, the action visits the items and has a result made of the answers. -/
def Loops (earlier : List (ι × α)) (action : Exec γ) (items : List ι)
    (step : List (ι × α) → ι → Exec α) (goesOn : α → Bool) (collect : List (ι × α) → γ) : Prop :=
  ∀ state, ∃ visited fault last, Visits step goesOn earlier state items visited fault last ∧
    action state = finished fault last (pure (collect visited))

variable {step : List (ι × α) → ι → Exec α} {goesOn : α → Bool} {earlier visited : List (ι × α)}
  {items : List ι} {before last : State} {fault : Option Fault}

/-! ## Loops -/

theorem loops_mapM (f : ι → Exec α) (items : List ι) (earlier : List (ι × α)) :
    Loops earlier (items.mapM f) items (fun _ => f) (fun _ => true) (·.map (·.2)) := by
  induction items generalizing earlier with
  | nil => exact fun state => ⟨[], none, state, .done earlier state, rfl⟩
  | cons item items ih =>
    intro state
    rw [List.mapM_cons]
    cases first : f item state with
    | error fault last =>
      exact ⟨[], some fault, last, .failed items first, bind_error first⟩
    | ok answer middle =>
      obtain ⟨visited, fault, last, visits, ran⟩ := ih (earlier ++ [(item, answer)]) middle
      refine ⟨(item, answer) :: visited, fault, last, .more first rfl visits, ?_⟩
      rw [bind_ok first]
      cases fault with
      | some fault => exact bind_error ran
      | none => exact bind_ok ran

/-- A loop that stops at the first answer that decides, and makes its result of that answer. -/
theorem loops_deciding {loop : List ι → Exec β} {f : ι → Exec α} {collect : List (ι × α) → β}
    (nil : loop [] = pure (collect []))
    (cons : ∀ item items, loop (item :: items) = do
      let answer ← f item
      if goesOn answer then loop items else pure (collect [(item, answer)]))
    (passes : ∀ item answer visited, goesOn answer = true →
      collect ((item, answer) :: visited) = collect visited)
    (items : List ι) (earlier : List (ι × α)) :
    Loops earlier (loop items) items (fun _ => f) goesOn collect := by
  induction items generalizing earlier with
  | nil => exact fun state => ⟨[], none, state, .done earlier state, congrFun nil state⟩
  | cons item items ih =>
    intro state
    rw [cons]
    cases first : f item state with
    | error fault last =>
      exact ⟨[], some fault, last, .failed items first, bind_error first⟩
    | ok answer middle =>
      cases on : goesOn answer with
      | false =>
        refine ⟨[(item, answer)], none, middle, .decided items first on, ?_⟩
        rw [bind_ok first, on]
        rfl
      | true =>
        obtain ⟨visited, fault, last, visits, ran⟩ := ih (earlier ++ [(item, answer)]) middle
        refine ⟨(item, answer) :: visited, fault, last, .more first on visits, ?_⟩
        rw [bind_ok first, on, passes item answer visited on]
        exact ran

/-- What follows only adds boxes. -/
def Adds (action : Exec β) : Prop := ∀ state : State, state.heap.Extends (action.last state).heap

theorem adds_pure (result : β) : Adds (pure result) := fun state => .refl state.heap

theorem adds_throw (fault : Fault) : Adds (throw fault : Exec β) := fun state => .refl state.heap

theorem adds_alloc (box : Box) : Adds (alloc box) := fun state => Heap.extends_alloc state.heap box

theorem adds_write (pieces : List Bytes) : Adds (write pieces) := by
  intro state
  unfold last write
  split
  · rename_i ran
    split at ran
    · cases ran
      exact .refl state.heap
    · cases ran
  · rename_i ran
    split at ran
    · cases ran
    · cases ran
      exact .refl state.heap

variable {body : Exec γ} {collect : List (ι × α) → γ} {before : State}

/-- An action goes through what a loop goes through that it begins with. -/
theorem Loops.goesThrough (loops : Loops [] body items step goesOn collect) {finish : γ → Exec β}
    (adds : ∀ result, Adds (finish result)) (before : State) :
    GoesThrough (body >>= finish) before items step goesOn fun visited => finish (collect visited) := by
  obtain ⟨visited, fault, last, visits, ran⟩ := loops before
  refine ⟨before, visited, fault, last, last, .refl before, visits, .refl last, ?_, ?_⟩
  · cases fault with
    | some fault => exact bind_error ran
    | none => exact bind_ok ran
  · cases fault with
    | some fault =>
      rw [last_error (bind_error ran)]
      exact .refl last.heap
    | none =>
      have same : (body >>= finish) before = finish (collect visited) last := bind_ok ran
      unfold Exec.last
      rw [same]
      exact adds _ last

section

variable [DecidableEq κ] {key : κ} (list : MarkList κ) (fresh : key ∉ list.get before.marks)

include fresh

theorem marking_ok {result : γ}
    (ran : body { before with marks := list.set (key :: list.get before.marks) before.marks } =
      .ok result last) :
    ∃ released, last.SameBoxes released ∧
      marking list key body before = .ok (some result) released := by
  refine ⟨{ last with marks := list.set ((list.get last.marks).erase key) last.marks }, ⟨rfl, rfl⟩, ?_⟩
  unfold marking
  rw [if_neg fresh, ran]

theorem marking_error {fault : Fault}
    (ran : body { before with marks := list.set (key :: list.get before.marks) before.marks } =
      .error fault last) :
    ∃ released, last.SameBoxes released ∧ marking list key body before = .error fault released := by
  unfold marking
  rw [if_neg fresh, ran]
  cases fault with
  | error error =>
    exact ⟨{ last with marks := list.set ((list.get last.marks).erase key) last.marks },
      ⟨rfl, rfl⟩, rfl⟩
  | _ => exact ⟨last, .refl last, rfl⟩

/-- So does one that begins with a loop behind a mark, unless there is a mark already. -/
theorem Loops.goesThrough_marking (loops : Loops [] body items step goesOn collect)
    (finish : Option γ → Exec β) (adds : ∀ result, Adds (finish result)) :
    GoesThrough (marking list key body >>= finish) before items step goesOn
      fun visited => finish (some (collect visited)) := by
  let begun : State := { before with marks := list.set (key :: list.get before.marks) before.marks }
  have begins : before.SameBoxes begun := ⟨rfl, rfl⟩
  obtain ⟨visited, fault, last, visits, ran⟩ := loops begun
  cases fault with
  | none =>
    obtain ⟨released, same, marked⟩ := marking_ok list fresh ran
    refine ⟨begun, visited, none, last, released, begins, visits, same, bind_ok marked, ?_⟩
    have rest : (marking list key body >>= finish) before = finish _ released := bind_ok marked
    unfold Exec.last
    rw [rest, ← same.heap]
    exact adds _ released
  | some fault =>
    obtain ⟨released, same, marked⟩ := marking_error list fresh ran
    refine ⟨begun, visited, some fault, last, released, begins, visits, same, bind_error marked, ?_⟩
    rw [last_error (bind_error marked), same.heap]
    exact .refl last.heap

end

/-- Only what an action does in the one state counts. -/
theorem GoesThrough.congr {action action' : Exec β} {finish : List (ι × α) → Exec β}
    (h : GoesThrough action before items step goesOn finish) (same : action' before = action before) :
    GoesThrough action' before items step goesOn finish := by
  obtain ⟨begun, visited, fault, last, middle, starts, visits, ends, ran, grown⟩ := h
  refine ⟨begun, visited, fault, last, middle, starts, visits, ends, same.trans ran, ?_⟩
  unfold Exec.last at *
  rwa [same]

end Exec

/-! ## The traversals of arrays -/

namespace Engine

open Exec

variable (engine : Engine)

theorem loops_equalPairs (pairs : List (Ref × Ref)) (earlier : List ((Ref × Ref) × Bool)) :
    Loops earlier (engine.equalPairs pairs) pairs (fun _ pair => engine.areEqual pair.1 pair.2) id
      (·.all (·.2)) := by
  refine loops_deciding rfl (fun pair rest => ?_) (fun pair answer visited on => ?_) pairs earlier
  · refine congrArg (engine.areEqual pair.1 pair.2 >>= ·) (funext fun same => ?_)
    cases same <;> rfl
  · cases on
    rfl

theorem loops_equalsAny (target : Ref) (values : List Ref) (earlier : List (Ref × Bool)) :
    Loops earlier (engine.equalsAny target values) values (fun _ value => engine.areEqual value target)
      (!·) (·.any (·.2)) := by
  refine loops_deciding rfl (fun value rest => ?_) (fun value answer visited on => ?_) values earlier
  · refine congrArg (engine.areEqual value target >>= ·) (funext fun same => ?_)
    cases same <;> rfl
  · rw [Bool.not_eq_true'] at on
    rw [on]
    rfl

/-- The elements that are no duplicates, with their hashes. -/
def distinct (visited : List (Ref × Int64 × Bool)) : List (Int64 × Ref) :=
  visited.filterMap fun (item, hash, duplicate) => if duplicate then none else some (hash, item)

/-- The step of `dedupe`: the hash of an element, and whether it equals an earlier one that is kept
and has the same hash. -/
def sift (earlier : List (Ref × Int64 × Bool)) (item : Ref) : Exec (Int64 × Bool) := do
  let hash ← engine.hashOf item
  let rivals := ((distinct earlier).filter fun entry => entry.1 == hash).map (·.2)
  return (hash, ← engine.equalsAny item rivals)

theorem loops_dedupe (items : List Ref) (earlier : List (Ref × Int64 × Bool)) :
    Loops earlier (engine.dedupe (distinct earlier) items) items engine.sift (fun _ => true)
      fun visited => (distinct (earlier ++ visited)).map (·.2) := by
  induction items generalizing earlier with
  | nil =>
    intro state
    refine ⟨[], none, state, .done earlier state, ?_⟩
    simp only [List.append_nil]
    rfl
  | cons item items ih =>
    intro state
    cases hashed : engine.hashOf item state with
    | error fault last =>
      exact ⟨[], some fault, last, .failed items (bind_error hashed), bind_error hashed⟩
    | ok hash between =>
      have sifted (duplicate : Bool) (last : State) (found : engine.equalsAny item
          (((distinct earlier).filter fun entry => entry.1 == hash).map (·.2)) between =
            .ok duplicate last) : engine.sift earlier item state = .ok (hash, duplicate) last :=
        (bind_ok hashed).trans (bind_ok found)
      cases compared : engine.equalsAny item
          (((distinct earlier).filter fun entry => entry.1 == hash).map (·.2)) between with
      | error fault last =>
        exact ⟨[], some fault, last, .failed items ((bind_ok hashed).trans (bind_error compared)),
          (bind_ok hashed).trans (bind_error compared)⟩
      | ok duplicate middle =>
        obtain ⟨visited, fault, last, visits, ran⟩ :=
          ih (earlier ++ [(item, hash, duplicate)]) middle
        refine ⟨(item, hash, duplicate) :: visited, fault, last,
          .more (sifted duplicate middle compared) rfl visits, ?_⟩
        dsimp only
        rw [List.append_cons earlier (item, hash, duplicate) visited]
        refine ((bind_ok hashed).trans (bind_ok compared)).trans ?_
        cases duplicate with
        | true =>
          have same : distinct (earlier ++ [(item, hash, true)]) = distinct earlier := by
            simp [distinct]
          rw [same] at ran
          exact ran
        | false =>
          have more : distinct (earlier ++ [(item, hash, false)]) =
              distinct earlier ++ [(hash, item)] := by simp [distinct]
          rw [more] at ran
          exact ran

/-- Every traversal of the array visits these items, one after another and no others: for its text,
for `join` and on a printed line to make their texts, for its hash to hash them, for its equality to
compare them with those of the other array, for `contains` to compare them with the target, and for
`dedupe` to sift them. The text, the hash and the equality of an array within itself are cut off
instead, without a traversal. -/
structure Traverses (before : State) (array : Ref) (items : List Ref) : Prop where
  text : array ∉ before.marks.text →
    GoesThrough (engine.runBuiltin (.common .array .toText) [array]) before items
      (fun _ item => do Exec.bytesOf (← engine.textOf item)) (fun _ => true) fun visited =>
        if items.isEmpty then engine.machine.newString (Utf8.ofString "[]")
        else engine.newBracketed (visited.map (·.2))
  join : ∀ rest separator, Arguments.optional .string (array :: rest) 1 before = .ok separator before →
    GoesThrough (engine.runBuiltin (.array .join) (array :: rest)) before items
      (fun _ item => do Exec.bytesOf (← engine.textOf item)) (fun _ => true) fun visited =>
        engine.machine.newString (joined separator (visited.map (·.2)))
  equal : ∀ other buffer, (before.heap.get other).payload = .array buffer →
    (array, other) ∉ before.marks.equality →
      GoesThrough (engine.runBuiltin (.common .array .equal) [array, other]) before
        (if items.length = buffer.live.length then items.zip buffer.live else [])
        (fun _ pair => engine.areEqual pair.1 pair.2) id fun visited =>
          pure (engine.machine.boolValue
            (items.length == buffer.live.length && visited.all (·.2)))
  hash : array ∉ before.marks.hash →
    GoesThrough (engine.runBuiltin (.common .array .hash) [array]) before items
      (fun _ => engine.hashOf) (fun _ => true) fun visited =>
        engine.machine.newInt (Hash.ofElements (visited.map (·.2)))
  contains : ∀ target,
    GoesThrough (engine.runBuiltin (.array .contains) [array, target]) before items
      (fun _ item => engine.areEqual item target) (!·) fun visited =>
        pure (engine.machine.boolValue (visited.any (·.2)))
  dedupe :
    GoesThrough (engine.runBuiltin (.array .dedupe) [array]) before items engine.sift
      (fun _ => true) fun visited => engine.machine.newArray ((distinct visited).map (·.2))
  print :
    GoesThrough (do engine.printLine (← Exec.itemsOf array)) before items
      (fun _ item => do Exec.bytesOf (← engine.textOf item)) (fun _ => true) fun visited =>
        Exec.write (linePieces (visited.map (·.2)))

variable {engine} {before : State} {array : Ref} {buffer : Buffer}

theorem adds_newBracketed (texts : List Bytes) : Adds (engine.newBracketed texts) := by
  unfold newBracketed
  split
  · exact adds_throw _
  · dsimp only
    split
    · exact adds_alloc _
    · exact adds_throw _

theorem loops_texts (items : List Ref) : Loops [] (engine.texts items) items
    (fun _ item => do Exec.bytesOf (← engine.textOf item)) (fun _ => true) (·.map (·.2)) :=
  loops_mapM (fun item => do Exec.bytesOf (← engine.textOf item)) items []

section

variable (held : (before.heap.get array).payload = .array buffer)

include held

theorem receives_array (rest : List Ref) :
    Arguments.receiver .array (array :: rest) before = .ok buffer before :=
  Arguments.receiver_ok (by rw [held]; rfl)

theorem goesThrough_text (fresh : array ∉ before.marks.text) :
    GoesThrough (engine.runBuiltin (.common .array .toText) [array]) before buffer.live
      (fun _ item => do Exec.bytesOf (← engine.textOf item)) (fun _ => true) fun visited =>
        if buffer.live.isEmpty then engine.machine.newString (Utf8.ofString "[]")
        else engine.newBracketed (visited.map (·.2)) := by
  have opened : engine.runBuiltin (.common .array .toText) [array] before =
      engine.arrayText array buffer.live before :=
    (bind_ok (receives_array held [])).trans (bind_ok (Arguments.given_zero before))
  by_cases empty : buffer.live.isEmpty
  · have made : engine.arrayText array buffer.live =
        engine.machine.newString (Utf8.ofString "[]") := if_pos empty
    simp only [if_pos empty]
    have nothing : Loops [] (pure [] : Exec (List Bytes)) buffer.live
        (fun _ item => do Exec.bytesOf (← engine.textOf item)) (fun _ => true) (·.map (·.2)) := by
      rw [List.isEmpty_iff.1 empty]
      exact fun state => ⟨[], none, state, .done [] state, rfl⟩
    refine (nothing.goesThrough (fun _ => adds_alloc _) before).congr ?_
    rw [opened, made]
    rfl
  · simp only [if_neg empty]
    let finish (texts : Option (List Bytes)) : Exec Ref :=
      texts.elim (engine.machine.newString (Utf8.ofString "[...]")) engine.newBracketed
    refine ((loops_texts buffer.live).goesThrough_marking textMarks fresh finish ?_).congr ?_
    · intro texts
      cases texts with
      | none => exact adds_alloc _
      | some texts => exact adds_newBracketed texts
    · have made : engine.arrayText array buffer.live =
          marking textMarks array (engine.texts buffer.live) >>= finish := by
        rw [arrayText, if_neg empty]
        refine congrArg (_ >>= ·) (funext fun texts => ?_)
        cases texts <;> rfl
      rw [opened, made]

theorem goesThrough_join (rest : List Ref) (separator : Option Bytes)
    (given : Arguments.optional .string (array :: rest) 1 before = .ok separator before) :
    GoesThrough (engine.runBuiltin (.array .join) (array :: rest)) before buffer.live
      (fun _ item => do Exec.bytesOf (← engine.textOf item)) (fun _ => true) fun visited =>
        engine.machine.newString (joined separator (visited.map (·.2))) :=
  ((loops_texts buffer.live).goesThrough
    (fun texts => adds_alloc ⟨engine.machine.ids.string, .string (joined separator texts)⟩)
      before).congr ((bind_ok (receives_array held rest)).trans (bind_ok given))

theorem goesThrough_contains (target : Ref) :
    GoesThrough (engine.runBuiltin (.array .contains) [array, target]) before buffer.live
      (fun _ item => engine.areEqual item target) (!·) fun visited =>
        pure (engine.machine.boolValue (visited.any (·.2))) :=
  ((engine.loops_equalsAny target buffer.live []).goesThrough
    (fun found => adds_pure (engine.machine.boolValue found)) before).congr
      ((bind_ok (receives_array held [target])).trans (bind_ok (Arguments.given_one before)))

theorem goesThrough_dedupe :
    GoesThrough (engine.runBuiltin (.array .dedupe) [array]) before buffer.live engine.sift
      (fun _ => true) fun visited => engine.machine.newArray ((distinct visited).map (·.2)) :=
  ((engine.loops_dedupe buffer.live []).goesThrough
    (fun items => adds_alloc ⟨engine.machine.ids.array, .array (.ofItems _ items)⟩) before).congr
      (bind_ok (receives_array held []))

theorem goesThrough_equal {other : Ref} {content : Buffer}
    (held' : (before.heap.get other).payload = .array content)
    (fresh : (array, other) ∉ before.marks.equality) :
    GoesThrough (engine.runBuiltin (.common .array .equal) [array, other]) before
      (if buffer.live.length = content.live.length then buffer.live.zip content.live else [])
      (fun _ pair => engine.areEqual pair.1 pair.2) id fun visited =>
        pure (engine.machine.boolValue
          (buffer.live.length == content.live.length && visited.all (·.2))) := by
  have loops : Loops [] (if buffer.live.length ≠ content.live.length then return false
      else engine.equalPairs (buffer.live.zip content.live))
      (if buffer.live.length = content.live.length then buffer.live.zip content.live else [])
      (fun _ pair => engine.areEqual pair.1 pair.2) id
      fun visited => buffer.live.length == content.live.length && visited.all (·.2) := by
    by_cases same : buffer.live.length = content.live.length
    · simp only [same, ne_eq, not_true_eq_false, if_false, if_true, BEq.rfl, Bool.true_and]
      exact engine.loops_equalPairs _ []
    · simp only [same, ne_eq, not_false_eq_true, if_true, if_false, beq_eq_false_iff_ne.2 same,
        Bool.false_and]
      exact fun state => ⟨[], none, state, .done [] state, rfl⟩
  refine (loops.goesThrough_marking equalityMarks fresh (fun verdict => pure
    (engine.machine.boolValue (verdict.getD true))) (fun _ => adds_pure _)).congr ?_
  have opened : engine.equal .array [array, other] before =
      engine.arraysEqual array other buffer.live content.live before := by
    refine (bind_ok (receives_array held [other])).trans ?_
    refine (bind_ok (Arguments.given_one before)).trans ((bind_ok (payload_ok other before)).trans ?_)
    rw [held']
    exact bind_ok (Arguments.given_zero before)
  refine (bind_congr_left opened).trans ?_
  rw [arraysEqual, bind_assoc]
  rfl

theorem goesThrough_hash (fresh : array ∉ before.marks.hash) :
    GoesThrough (engine.runBuiltin (.common .array .hash) [array]) before buffer.live
      (fun _ => engine.hashOf) (fun _ => true) fun visited =>
        engine.machine.newInt (Hash.ofElements (visited.map (·.2))) := by
  have loops : Loops [] (engine.hashes buffer.live) buffer.live (fun _ => engine.hashOf)
      (fun _ => true) (·.map (·.2)) := loops_mapM engine.hashOf buffer.live []
  refine (loops.goesThrough_marking hashMarks fresh (fun hashes =>
    engine.machine.newInt (hashes.elim cycleHash Hash.ofElements)) (fun _ => adds_alloc _)).congr ?_
  have opened : engine.hash .array [array] before = engine.hashElements array buffer.live before :=
    (bind_ok (receives_array held [])).trans (bind_ok (Arguments.given_zero before))
  refine (bind_congr_left opened).trans ?_
  rw [hashElements, bind_assoc]
  refine congrFun (congrArg (_ >>= ·) (funext fun hashes => ?_)) before
  cases hashes <;> rfl

theorem goesThrough_print : GoesThrough (do engine.printLine (← Exec.itemsOf array)) before
    buffer.live (fun _ item => do Exec.bytesOf (← engine.textOf item)) (fun _ => true) fun visited =>
      Exec.write (linePieces (visited.map (·.2))) := by
  have opened : itemsOf array before = .ok buffer.live before := by
    unfold itemsOf
    rw [bind_ok (payload_ok array before), held]
    rfl
  exact ((loops_texts buffer.live).goesThrough (fun texts => adds_write (linePieces texts))
    before).congr (bind_ok opened)

end

/-- **Traversals visit what was there when they began.** However the engine runs methods, and whatever
these do to any array, each traversal of an array takes the elements that the array had at first, in
order, each in the state in which the step before ended, up to the first fault or decision. What the
steps did to the boxes is there afterwards. -/
theorem traversals_take_snapshots (engine : Engine) {before : State} {array : Ref} {buffer : Buffer}
    (held : (before.heap.get array).payload = .array buffer) :
    engine.Traverses before array buffer.live where
  text := goesThrough_text held
  join := goesThrough_join held
  equal _ _ held' := goesThrough_equal held held'
  hash := goesThrough_hash held
  contains := goesThrough_contains held
  dedupe := goesThrough_dedupe held
  print := goesThrough_print held

end Engine

namespace Machine

/-- The body of a method that replaces the second element of an array, appends to the array, and
returns a text of one letter. -/
def meddle (array : Ref) : Program Ref :=
  .ask (.set array 1 ⟨0⟩) fun _ => .ask (.push array ⟨1⟩) fun _ => .ask (.string [109]) .done

/-- The machine with the builtin types and one more, whose values change an array when their text is
made. -/
def meddling : Machine :=
  { bare with table := ⟨bare.table.entries.push (some ⟨"Meddler",
    [.closure "toString" (.exactly 1) [⟨7⟩] fun captures _ => meddle (captures.headD ⟨0⟩)]⟩)⟩ }

/-- A value of that type, and an array of it and `true`. -/
def meddlingState : State :=
  { bareState with heap := ⟨bareState.heap.boxes ++
    #[⟨⟨6⟩, .record []⟩, ⟨bare.ids.array, .array ⟨#[⟨6⟩, ⟨2⟩], 2⟩⟩]⟩ }

/-- The text is that of the two elements from before, and the array has got three others. -/
theorem traversals_take_snapshots_meddling :
    (meddling.engine 2).Traverses meddlingState ⟨7⟩ [⟨6⟩, ⟨2⟩] ∧
      ∃ text after, meddling.textOf ⟨7⟩ meddlingState = .ok text after ∧
        (after.heap.get text).payload = .string (Utf8.ofString "[m, true]") ∧
        after.heap.items ⟨7⟩ = [⟨6⟩, ⟨0⟩, ⟨1⟩] := by
  have held : (meddlingState.heap.get ⟨7⟩).payload = .array ⟨#[⟨6⟩, ⟨2⟩], 2⟩ := rfl
  exact ⟨Engine.traversals_take_snapshots (meddling.engine 2) held, _, _, rfl, rfl, rfl⟩

end Machine

end BoxedValues
