import BoxedValues.Proofs.Machine.Giving

/-!
# How deeply calls nest

A method may call others, and these may call it again. `Machine.watched` is an engine that looks at
every call which is made within another one: it cuts off a call unless its marks are deeper than
those of the call around it, and it nests calls no deeper than it is told.

`Exec.Same` relates an action that returns to one that goes the same way. The rules of this module
put pairs of such actions together, and `same_watched` is the induction on what carries no mark yet:
an operation whose nested calls only ask for more of the same, each with a new mark, goes the same
way on the engine that watches and on the machine.
-/

set_option autoImplicit false

namespace BoxedValues

namespace Exec

/-! ## Two actions that go the same way -/

variable {α β ι κ : Type} {action action' : Exec α} {next next' : α → Exec β} {before : State}
  {result : α}

/-- The first action returns and only adds boxes, and the second goes the same way. -/
def Same (action action' : Exec α) (before : State) : Prop :=
  ∃ after, action.Returns before after ∧ before.Grows after ∧ action' before = action before

/-- Only what the two do in the one state counts. -/
theorem Same.congr {first second : Exec α} (h : action.Same action' before)
    (same : first before = action before) (same' : second before = action' before) :
    first.Same second before := by
  obtain ⟨after, returns, grows, agree⟩ := h
  refine ⟨after, ?_, grows, same'.trans (agree.trans same.symm)⟩
  unfold Returns
  rw [same]
  exact returns

theorem same_of_ok (h : action before = .ok result before) : action.Same action before :=
  ⟨before, .inl ⟨result, h⟩, .refl before, rfl⟩

theorem same_pure (result : α) : (pure result : Exec α).Same (pure result) before :=
  same_of_ok (pure_ok result before)

theorem same_fail (error : MachineError) : (fail error : Exec α).Same (fail error) before :=
  ⟨before, .inr ⟨error, rfl⟩, .refl before, rfl⟩

theorem same_alloc (box : Box) : (alloc box).Same (alloc box) before :=
  ⟨_, .inl ⟨_, rfl⟩, ⟨Heap.extends_alloc before.heap box, rfl, rfl⟩, rfl⟩

theorem Same.bind (first : action.Same action' before)
    (rest : ∀ result after, before.Grows after → action before = .ok result after →
      (next result).Same (next' result) after) :
    (action >>= next).Same (action' >>= next') before := by
  obtain ⟨after, returns, grows, agree⟩ := first
  rcases returns with ⟨result, ran⟩ | ⟨error, ran⟩
  · obtain ⟨last, returnsLast, growsLast, agreeLast⟩ := rest result after grows ran
    refine ⟨last, ?_, grows.trans growsLast, ?_⟩
    · unfold Returns
      rw [bind_ok ran]
      exact returnsLast
    · rw [bind_ok (agree.trans ran), bind_ok ran, agreeLast]
  · refine ⟨after, .inr ⟨error, bind_error ran⟩, grows, ?_⟩
    rw [bind_error (agree.trans ran), bind_error ran]

/-- A first part that only looks at the state. -/
theorem same_bind_ok (h : action before = .ok result before)
    (rest : (next result).Same (next' result) before) :
    (action >>= next).Same (action >>= next') before := by
  apply rest.congr
  · exact bind_ok h
  · exact bind_ok h

theorem same_mapM {f f' : ι → Exec α} (items : List ι)
    (each : ∀ item ∈ items, ∀ after, before.Grows after → (f item).Same (f' item) after) :
    (items.mapM f).Same (items.mapM f') before := by
  induction items generalizing before with
  | nil => exact same_pure []
  | cons item items ih =>
    rw [List.mapM_cons, List.mapM_cons]
    apply (each item (.head items) before (.refl before)).bind
    intro result middle grows _
    have further : ∀ item ∈ items, ∀ after, middle.Grows after → (f item).Same (f' item) after :=
      fun item mem after more => each item (.tail _ mem) after (grows.trans more)
    exact (ih further).bind fun results after _ _ => same_pure _

/-- There are as many results as items. -/
theorem length_of_mapM {f : ι → Exec α} {items : List ι} {results : List α} {after : State}
    (ran : items.mapM f before = .ok results after) : results.length = items.length := by
  induction items generalizing before results with
  | nil =>
    cases ran
    rfl
  | cons item items ih =>
    rw [List.mapM_cons] at ran
    obtain ⟨result, middle, _, ran⟩ := of_bind_ok ran
    obtain ⟨rest, last, ranRest, ran⟩ := of_bind_ok ran
    cases ran
    rw [List.length_cons, List.length_cons, ih ranRest]

variable [DecidableEq κ] {list : MarkList κ} {key : κ} {keys : Finset κ}

/-- A result behind a mark comes from the action. -/
theorem of_marking_some {after : State} (ran : marking list key action before = .ok (some result) after) :
    ∃ marked last, action marked = .ok result last := by
  unfold marking at ran
  split at ran
  · cases ran
  · split at ran
    · rename_i ok
      cases ran
      exact ⟨_, _, ok⟩
    · cases ran
    · cases ran

/-- Nothing is run if there is a mark already. -/
theorem same_marking (lawful : list.Lawful)
    (h : key ∉ list.get before.marks → action.Same action' { before with
      marks := list.set (key :: list.get before.marks) before.marks }) :
    (marking list key action).Same (marking list key action') before := by
  by_cases marked : key ∈ list.get before.marks
  · refine ⟨before, .inl ⟨none, if_pos marked⟩, .refl before, ?_⟩
    unfold marking
    rw [if_pos marked, if_pos marked]
  obtain ⟨after, returns, grows, agree⟩ := h marked
  have marks := grows.marks
  simp only at marks
  have released : before.Grows
      { after with marks := list.set ((list.get after.marks).erase key) after.marks } := by
    refine ⟨grows.heap, ?_, grows.sink⟩
    simp only [marks, lawful.get_set, List.erase_cons_head, lawful.set_set, lawful.set_get]
  refine ⟨_, ?_, released, ?_⟩
  · unfold Returns marking
    rw [if_neg marked]
    rcases returns with ⟨result, ran⟩ | ⟨error, ran⟩
    · exact .inl ⟨some result, by simp only [ran]⟩
    · exact .inr ⟨error, by simp only [ran]⟩
  · unfold marking
    rw [if_neg marked, if_neg marked, agree]

/-! ## Deeper marks -/

/-- The inner marks are the outer ones with one more key in front, which had no mark. -/
def Deepens (list : MarkList κ) (keys : Finset κ) (outer inner : Marks) : Prop :=
  ∃ key ∈ keys, key ∉ list.get outer ∧ list.get inner = key :: list.get outer

instance (list : MarkList κ) (keys : Finset κ) : DecidableRel (Deepens list keys) :=
  fun outer inner => inferInstanceAs (Decidable (∃ key ∈ keys, key ∉ list.get outer ∧
    list.get inner = key :: list.get outer))

theorem Deepens.unmarked_lt {outer inner : Marks} (h : Deepens list keys outer inner) :
    unmarked keys (list.get inner) < unmarked keys (list.get outer) := by
  obtain ⟨key, mem, fresh, same⟩ := h
  rw [same]
  exact unmarked_cons_lt mem fresh

omit [DecidableEq κ] in
/-- The marks are deeper while a new mark is set. -/
theorem deepens_of_grows {after : State} (lawful : list.Lawful) (mem : key ∈ keys)
    (fresh : key ∉ list.get before.marks)
    (grows : State.Grows { before with
      marks := list.set (key :: list.get before.marks) before.marks } after) :
    Deepens list keys before.marks after.marks := by
  refine ⟨key, mem, fresh, ?_⟩
  rw [grows.marks]
  exact lawful.get_set _ _

/-- Marks cannot be deepened for ever. -/
theorem wellFounded_deepens (list : MarkList κ) (keys : Finset κ) :
    WellFounded fun inner outer => Deepens list keys outer inner :=
  Subrelation.wf Deepens.unmarked_lt
    (measure fun marks => unmarked keys (list.get marks)).wf

end Exec

/-! ## Watching calls -/

namespace Machine

open Exec

section

variable (machine : Machine) (deeper : Marks → Marks → Prop) [DecidableRel deeper]

/-- Calls that are cut off unless their marks are deeper than those of the call around them. -/
def checked (outer : Marks) (invoke : Method → List Ref → Exec Ref) (method : Method)
    (args : List Ref) : Exec Ref := fun state =>
  if deeper outer state.marks then invoke method args state else .error .depthExceeded state

/-- Run a method whose calls are nested less than `depth` deep, each with deeper marks than the call
around it. -/
def watchedInvoke : Nat → Method → List Ref → Exec Ref
  | 0 => fun _ _ => throw .depthExceeded
  | depth + 1 => fun method args state =>
    Engine.runMethod ⟨machine, checked deeper state.marks (watchedInvoke depth)⟩ method args state

/-- The engine that watches nested calls. -/
def watched (depth : Nat) : Engine := ⟨machine, machine.watchedInvoke deeper depth⟩

end

variable {α ι κ : Type} [DecidableEq κ] {machine : Machine} {list : MarkList κ} {keys : Finset κ}

/-- What is known of an operation that calls one common method: it takes the way that this call
takes, and the method goes the same way on two machines if the operation does wherever one more key
is marked. -/
structure Descends (machine : Machine) (list : MarkList κ) (keys : Finset κ)
    (operation : Engine → ι → Exec α) (method : CommonMethod) (args : ι → List Ref)
    (fits : State → ι → Prop) : Prop where
  count : ∀ item, method.arity.accepts (args item).length = true
  dispatch : ∀ {invoke invoke' state item}, fits state item →
    (∀ type, (invoke (.builtin (.common type method)) (args item)).Same
      (invoke' (.builtin (.common type method)) (args item)) state) →
    (operation ⟨machine, invoke⟩ item).Same (operation ⟨machine, invoke'⟩ item) state
  body : ∀ {invoke invoke' state item}, fits state item →
    (∀ state' item', fits state' item' → Deepens list keys state.marks state'.marks →
      (operation ⟨machine, invoke⟩ item').Same (operation ⟨machine, invoke'⟩ item') state') →
    ∀ type, (Engine.runCommon ⟨machine, invoke⟩ type method (args item)).Same
      (Engine.runCommon ⟨machine, invoke'⟩ type method (args item)) state

variable {operation : Engine → ι → Exec α} {method : CommonMethod} {args : ι → List Ref}
  {fits : State → ι → Prop}

theorem same_watchedInvoke (h : machine.Descends list keys operation method args fits)
    {depth depth' : Nat} {state : State} {item : ι} (good : fits state item)
    (room : unmarked keys (list.get state.marks) < depth)
    (room' : unmarked keys (list.get state.marks) < depth') (type : BuiltinType) :
    (machine.watchedInvoke (Deepens list keys) depth (.builtin (.common type method))
      (args item)).Same
        (machine.invoke depth' (.builtin (.common type method)) (args item)) state := by
  -- What carries the induction is the number of keys without a mark: each call nested in the method
  -- sees one fewer, and the engine that watches lets it pass for the same reason.
  induction depth generalizing depth' state item type with
  | zero => exact absurd room (Nat.not_lt_zero _)
  | succ depth ih =>
    obtain ⟨depth', rfl⟩ := Nat.exists_eq_succ_of_ne_zero (Nat.ne_zero_of_lt room')
    have accepted (invoke : Method → List Ref → Exec Ref) :
        Engine.runMethod ⟨machine, invoke⟩ (.builtin (.common type method)) (args item) =
          Engine.runCommon ⟨machine, invoke⟩ type method (args item) := if_pos (h.count item)
    refine (h.body good ?_ type).congr (congrFun (accepted _) state) (congrFun (accepted _) state)
    intro inner item' good' deepens
    have smaller := deepens.unmarked_lt
    refine h.dispatch good' fun type' => ?_
    refine (ih good' (by omega) (by omega) type').congr ?_ rfl
    exact if_pos deepens

/-- Such an operation goes the same way with nested calls watched. -/
theorem same_watched (h : machine.Descends list keys operation method args fits)
    {depth depth' : Nat} {state : State} {item : ι} (good : fits state item)
    (room : unmarked keys (list.get state.marks) < depth)
    (room' : unmarked keys (list.get state.marks) < depth') :
    (operation (machine.watched (Deepens list keys) depth) item).Same
      (operation (machine.engine depth') item) state :=
  h.dispatch good (same_watchedInvoke h good room room')

end Machine

end BoxedValues
