import BoxedValues.Proofs.Machine.Releasing

/-!
# Texts follow paths

What the text of an array is depends on the arrays that it is inside. `PathRendering` lists the
equations for this: they only look at the values, at their own elements and at the set of arrays
gone through, never at a walk, an engine or marks.

`text_by_path` says that the machine gives every value of builtin types the text that these
equations determine, from any marks, and that what is in spare slots makes no difference.
-/

set_option autoImplicit false

namespace BoxedValues.Machine

/-- The function gives each value that `root` reaches the text that it has inside the given arrays.
Values other than arrays have the text that the machine gives them. -/
structure PathRendering (machine : Machine) (state : State) (root : Ref)
    (rendering : Finset Ref → Ref → Bytes) : Prop where
  other : ∀ inside value, state.heap.Reaches root value →
    (∀ buffer, (state.heap.get value).payload ≠ .array buffer) →
      machine.GivesText state value (rendering inside value)
  array : ∀ inside value buffer, state.heap.Reaches root value →
    (state.heap.get value).payload = .array buffer →
      rendering inside value =
        if buffer.live = [] then Utf8.ofString "[]"
        else if value ∈ inside then Utf8.ofString "[...]"
        else Utf8.ofString "[" ++
          List.intercalate (Utf8.ofString ", ") (buffer.live.map (rendering (insert value inside))) ++
          Utf8.ofString "]"

variable {machine : Machine} {state other : State} {root value : Ref} {bytes bytes' : Bytes}
  {rendering : Finset Ref → Ref → Bytes}

theorem GivesText.unique (h : machine.GivesText state value bytes)
    (h' : machine.GivesText state value bytes') : bytes = bytes' := by
  obtain ⟨ref, after, ran, held⟩ := h
  obtain ⟨ref', after', ran', held'⟩ := h'
  rw [ran] at ran'
  cases ran'
  rw [held] at held'
  cases held'
  rfl

/-- The machine's text is that of the walk. -/
theorem givesText (live : machine.Live state) (within : state.heap.Within machine.IsBuiltin value) :
    machine.GivesText state value (state.heap.text state.marks.text value) := by
  obtain ⟨ref, after, ran, _, isText⟩ := gives_textOf live (Nat.le_refl _) within.carries
  exact ⟨ref, after, ran, isText⟩

theorem givesText_iff (live : machine.Live state)
    (within : state.heap.Within machine.IsBuiltin value) :
    machine.GivesText state value bytes ↔ bytes = state.heap.text state.marks.text value :=
  ⟨fun given => given.unique (givesText live within), fun same => same ▸ givesText live within⟩

section

variable (live : machine.Live state) (within : state.heap.Within machine.IsBuiltin root)

include live within

/-- The walk satisfies the equations, whatever order it lists the arrays in. -/
theorem pathRendering_text :
    machine.PathRendering state root fun inside => state.heap.text inside.toList where
  other inside value reaches leaf := by
    rw [givesText_iff live (within.of_reaches reaches), Heap.text_leaf leaf, Heap.text_leaf leaf]
  array inside value buffer reaches held := by
    by_cases empty : buffer.live = []
    · rw [Heap.text_empty held empty, if_pos empty]
    rw [if_neg empty]
    by_cases inner : value ∈ inside
    · rw [Heap.text_inside held empty (Finset.mem_toList.2 inner), if_pos inner]
    · have listed : ∀ ref, ref ∈ value :: inside.toList ↔ ref ∈ (insert value inside).toList := by
        simp only [List.mem_cons, Finset.mem_toList, Finset.mem_insert, implies_true]
      have items : buffer.live.map (state.heap.text (value :: inside.toList)) =
          buffer.live.map (state.heap.text (insert value inside).toList) := by
        apply List.map_congr_left
        intro item mem
        have further : state.heap.Reaches root item :=
          .tail reaches (by rwa [Heap.items_of_array held])
        exact Heap.fold_congr (within.of_reaches further).mirrors listed
      rw [Heap.text_outside held (mt Finset.mem_toList.1 inner), if_neg inner, items]
      rfl

/-- Nothing else satisfies them. -/
theorem PathRendering.eq_text (h : machine.PathRendering state root rendering)
    (reaches : state.heap.Reaches root value) (inside : List Ref) :
    rendering inside.toFinset value = state.heap.text inside value := by
  -- By induction on the boxes that are not inside: the equation for an array leads to its elements
  -- with the array itself inside.
  induction remaining : unmarked state.heap.refs inside using Nat.strong_induction_on
    generalizing inside value with
  | _ remaining ih =>
    subst remaining
    by_cases leaf : ∀ buffer, (state.heap.get value).payload ≠ .array buffer
    · have own := h.other inside.toFinset value reaches leaf
      rw [givesText_iff live (within.of_reaches reaches), Heap.text_leaf leaf] at own
      rw [own, Heap.text_leaf leaf]
    · simp only [ne_eq, not_forall, not_not] at leaf
      obtain ⟨buffer, held⟩ := leaf
      rw [h.array _ value buffer reaches held]
      by_cases empty : buffer.live = []
      · rw [if_pos empty, Heap.text_empty held empty]
      rw [if_neg empty]
      by_cases inner : value ∈ inside
      · rw [if_pos (List.mem_toFinset.2 inner), Heap.text_inside held empty inner]
      · have items : buffer.live.map (rendering (insert value inside.toFinset)) =
            buffer.live.map (state.heap.text (value :: inside)) := by
          apply List.map_congr_left
          intro item mem
          have further : state.heap.Reaches root item :=
            .tail reaches (by rwa [Heap.items_of_array held])
          rw [← List.toFinset_cons]
          exact ih _ (unmarked_cons_lt (Heap.mem_refs_of_array held) inner) further _ rfl
        rw [if_neg (mt List.mem_toFinset.1 inner), Heap.text_outside held inner, items]
        rfl

end

/-- The same live elements have the same text. -/
theorem givesText_mirrors (live : machine.Live state) (liveOther : machine.Live other)
    (within : state.heap.Within machine.IsBuiltin value)
    (mirrors : state.heap.Mirrors other.heap value)
    (marks : ∀ ref, ref ∈ other.marks.text ↔ ref ∈ state.marks.text)
    (h : machine.GivesText state value bytes) : machine.GivesText other value bytes := by
  have withinOther : other.heap.Within machine.IsBuiltin value := by
    apply mirrors.within within
    rintro box box' typeId kind ⟨type, isKind, isId⟩
    exact ⟨type, kind.trans isKind, typeId.trans isId⟩
  rw [givesText_iff live within] at h
  rw [givesText_iff liveOther withinOther, h]
  exact (Heap.fold_congr mirrors marks).symm

/-- **The text of an array graph is its path-based rendering.** On a live machine, from any marks,
there is one rendering of all that a value of builtin types reaches, and the machine gives the value
the text that it has inside the marked arrays. The size of a text that is reckoned in advance is
that of the octets written, for any texts of elements. Another state in which only spare slots
differ gives the same text. -/
theorem text_by_path (live : machine.Live state)
    (within : state.heap.Within machine.IsBuiltin value) :
    (∃ rendering, machine.PathRendering state value rendering) ∧
    (∀ rendering, machine.PathRendering state value rendering →
      machine.GivesText state value (rendering state.marks.text.toFinset value)) ∧
    (∀ texts, texts ≠ [] → Engine.reckonedSize? texts = some (Engine.bracketed texts).length) ∧
    ∀ other, machine.Live other → state.heap.Mirrors other.heap value →
      (∀ ref, ref ∈ other.marks.text ↔ ref ∈ state.marks.text) →
        ∀ bytes, machine.GivesText state value bytes → machine.GivesText other value bytes := by
  refine ⟨⟨_, pathRendering_text live within⟩, ?_, fun texts => Engine.reckonedSize?_eq, ?_⟩
  · intro rendering h
    rw [h.eq_text live within (Heap.reaches_self _ _)]
    exact givesText live within
  · intro other liveOther mirrors marks bytes given
    exact givesText_mirrors live liveOther within mirrors marks given

/-- The ring of one is cut off inside itself, whatever is put into a second slot. -/
theorem text_by_path_ring : ∃ other, bare.Live other ∧
    (other.heap.get ⟨6⟩).payload = .array ⟨#[⟨6⟩, ⟨7⟩], 1⟩ ∧
    bare.GivesText ringState ⟨6⟩ (Utf8.ofString "[[...]]") ∧
    bare.GivesText other ⟨6⟩ (Utf8.ofString "[[...]]") := by
  let other : State :=
    { ringState with heap := ringState.heap.setPayload ⟨6⟩ (.array ⟨#[⟨6⟩, ⟨7⟩], 1⟩) }
  have live : bare.Live other :=
    ⟨live_ringState.complete, live_ringState.shares.persists (Heap.persists_setPayload rfl rfl)⟩
  obtain ⟨⟨rendering, equations⟩, gives, _, spare⟩ :=
    text_by_path live_ringState (within_rings (List.mem_cons_self : (⟨6⟩ : Ref) ∈ rings))
  have given := gives rendering equations
  have cut := equations.array {⟨6⟩} ⟨6⟩ ⟨#[⟨6⟩], 1⟩ (Heap.reaches_self _ _) rfl
  rw [equations.array _ ⟨6⟩ ⟨#[⟨6⟩], 1⟩ (Heap.reaches_self _ _) rfl] at given
  change bare.GivesText ringState ⟨6⟩ (_ ++ ([rendering {⟨6⟩} ⟨6⟩].intersperse _).flatten ++ _) at given
  rw [cut] at given
  refine ⟨other, live, rfl, given, spare other live ?_ (fun _ => .rfl) _ given⟩
  intro ref reaches
  have alone : ref = ⟨6⟩ := by
    induction reaches with
    | refl => rfl
    | tail _ mem ih =>
      subst ih
      exact List.mem_singleton.1 mem
  subst alone
  exact ⟨_, _, rfl, rfl, rfl, rfl⟩

end BoxedValues.Machine
