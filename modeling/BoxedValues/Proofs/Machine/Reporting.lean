import BoxedValues.Proofs.Machine.Giving

/-!
# Actions that give a result or end with an error

`Exec.Reports` says that an action ends as a given outcome says: with a result that stands for the
outcome's, only adding boxes (`Exec.Gives`), or with the outcome's error (`Exec.FailsWith`). The rules
of this module follow the order in which an action runs: its first error is the error of the whole.
-/

set_option autoImplicit false

namespace BoxedValues.Exec

variable {α β γ δ κ : Type} {P : α → Heap → Prop} {before : State} {action : Exec α}
  {next : α → Exec β} {error : MachineError}

/-- The action ends with the error. -/
def FailsWith (action : Exec α) (before : State) (error : MachineError) : Prop :=
  ∃ after, action before = .error (.error error) after

theorem FailsWith.bind (h : action.FailsWith before error) :
    (action >>= next).FailsWith before error := by
  obtain ⟨after, ran⟩ := h
  exact ⟨after, bind_error ran⟩

/-- A first part that only looks at the state. -/
theorem fails_bind_ok {result : α} (h : action before = .ok result before)
    (rest : (next result).FailsWith before error) : (action >>= next).FailsWith before error := by
  obtain ⟨after, ran⟩ := rest
  exact ⟨after, by rw [bind_ok h, ran]⟩

theorem fails_marking [DecidableEq κ] {list : MarkList κ} {key : κ}
    (fresh : key ∉ list.get before.marks)
    (h : action.FailsWith { before with
      marks := list.set (key :: list.get before.marks) before.marks } error) :
    (marking list key action).FailsWith before error := by
  obtain ⟨after, ran⟩ := h
  refine ⟨{ after with marks := list.set ((list.get after.marks).erase key) after.marks }, ?_⟩
  unfold marking
  rw [if_neg fresh, ran]

/-- The action ends as the outcome says: with its error, or with a result that shows its own. -/
def Reports (action : Exec α) (before : State) (outcome : Except MachineError γ)
    (shows : γ → α → Heap → Prop) : Prop :=
  match outcome with
  | .ok content => action.Gives before (shows content)
  | .error error => action.FailsWith before error

variable {outcome : Except MachineError γ} {shows : γ → α → Heap → Prop}

/-- Only what the action does in the one state counts. -/
theorem Reports.of_eq {other : Exec α} (h : other.Reports before outcome shows)
    (same : action before = other before) : action.Reports before outcome shows := by
  unfold Reports Gives FailsWith at *
  rwa [same]

theorem reports_pure {content : γ} {result : α} (shown : shows content result before.heap) :
    (pure result : Exec α).Reports before (pure content) shows := gives_pure shown

/-- What follows a result reports what follows the content that the result shows. -/
theorem Reports.bind {onward : γ → Except MachineError δ} {shown : δ → β → Heap → Prop}
    (first : action.Reports before outcome shows)
    (rest : ∀ content result after, before.Grows after → shows content result after.heap →
      (next result).Reports after (onward content) shown) :
    (action >>= next).Reports before (outcome >>= onward) shown := by
  cases outcome with
  | error error => exact FailsWith.bind first
  | ok content =>
    obtain ⟨result, middle, ran, grows, property⟩ := first
    have last := rest content result middle grows property
    show (action >>= next).Reports before (onward content) shown
    cases final : onward content with
    | error error =>
      rw [final] at last
      obtain ⟨after, failed⟩ := last
      exact ⟨after, by rw [bind_ok ran, failed]⟩
    | ok value =>
      rw [final] at last
      obtain ⟨found, after, returned, growsLast, propertyLast⟩ := last
      exact ⟨found, after, by rw [bind_ok ran, returned], grows.trans growsLast, propertyLast⟩

/-- What follows a result always has a result itself. -/
theorem Reports.bind_gives {shown : γ → β → Heap → Prop}
    (first : action.Reports before outcome shows)
    (rest : ∀ content result after, before.Grows after → shows content result after.heap →
      (next result).Gives after (shown content)) :
    (action >>= next).Reports before outcome shown := by
  cases outcome with
  | ok content => exact Gives.bind first (rest content)
  | error error => exact FailsWith.bind first

/-- The outcome may be put differently. -/
theorem reports_map {f : γ → δ} {shown : δ → α → Heap → Prop} :
    action.Reports before (outcome.map f) shown ↔
      action.Reports before outcome fun content => shown (f content) := by
  cases outcome with
  | ok content => exact Iff.rfl
  | error error => exact Iff.rfl

theorem Reports.mono {shown : γ → α → Heap → Prop} (h : action.Reports before outcome shows)
    (implies : ∀ content result heap, shows content result heap → shown content result heap) :
    action.Reports before outcome shown := by
  cases outcome with
  | ok content => exact Gives.mono h (implies content)
  | error error => exact h

/-- A first part that only looks at the state. -/
theorem reports_bind_ok {result : α} {shown : γ → β → Heap → Prop}
    (h : action before = .ok result before) (rest : (next result).Reports before outcome shown) :
    (action >>= next).Reports before outcome shown := by
  cases outcome with
  | ok content => exact gives_bind_ok h rest
  | error error => exact fails_bind_ok h rest

/-- Items in order, up to the first error. -/
theorem reports_mapM {ι : Type} {f : ι → Exec α} {g : ι → Except MachineError α} (items : List ι)
    (each : ∀ item ∈ items, ∀ after, before.Grows after →
      (f item).Reports after (g item) fun content result _ => result = content) :
    (items.mapM f).Reports before (items.mapM g) fun contents results _ =>
      results = contents ∧ results.length = items.length := by
  induction items generalizing before with
  | nil => exact reports_pure ⟨rfl, rfl⟩
  | cons item items ih =>
    rw [List.mapM_cons, List.mapM_cons]
    refine (each item (.head items) before (.refl before)).bind fun content result middle grows same => ?_
    have further : ∀ item ∈ items, ∀ after, middle.Grows after →
        (f item).Reports after (g item) fun content result _ => result = content :=
      fun item mem after more => each item (.tail _ mem) after (grows.trans more)
    refine (ih further).bind fun contents results after _ sames => reports_pure ?_
    rw [same, List.length_cons, List.length_cons, sames.2, sames.1]
    exact ⟨rfl, rfl⟩

theorem reports_marking [DecidableEq κ] {list : MarkList κ} {key : κ} (lawful : list.Lawful)
    (fresh : key ∉ list.get before.marks)
    (h : action.Reports { before with
      marks := list.set (key :: list.get before.marks) before.marks } outcome shows) :
    (marking list key action).Reports before outcome fun content result heap =>
      ∃ value, result = some value ∧ shows content value heap := by
  cases outcome with
  | ok content => exact gives_marking lawful fresh h
  | error error => exact fails_marking fresh h

end BoxedValues.Exec
