import BoxedValues.Proofs.Heap.Shape
import BoxedValues.Proofs.Text.PathRendering

/-!
# Values of one shape have the same answers

What a machine says of values of builtin types depends on the shape of what they reach and on
nothing else: not on where the boxes are, nor on the order in which they were made, nor on what is
in spare slots. The walks behind texts and hashes look at no place (`nameless_textWalk`,
`nameless_walk`), and a bijection of boxes is a bisimulation.
-/

set_option autoImplicit false

namespace BoxedValues

theorem Heap.nameless_textWalk : Heap.textWalk.Nameless where
  leaf _ _ _ _ := rfl
  cut name items := by simp [Heap.textWalk]

theorem Unfolding.nameless_walk : Unfolding.walk.Nameless where
  leaf ref other payload kind := by
    cases payload with
    | record fields => exact absurd rfl kind
    | _ => rfl
  cut _ _ := rfl

namespace Machine

variable {machine other : Machine} {state state' : State} {a b value : Ref}

/-- The machine's hash is the digest of what the walk makes of the value. -/
theorem givesHash (live : machine.Live state) (within : state.heap.Within machine.IsBuiltin value) :
    machine.GivesHash state value
      (state.heap.fold Unfolding.walk state.marks.hash value).digest := by
  have hashable := within.mono fun _ builtin => builtin.ordinary [.hash]
  obtain ⟨hash, after, ran, _, same⟩ := gives_hashOf live (Nat.le_refl _) hashable.carries
  exact ⟨after, by rw [ran, same]⟩

section

variable (live : machine.Live state) (live' : other.Live state') (idle : state.marks = .none)
  (idle' : state'.marks = .none) (within : state.heap.Within machine.IsBuiltin a)
  (within' : state'.heap.Within other.IsBuiltin b) (shape : state.heap.SameShape state'.heap a b)

include live live' idle idle' within within' shape

theorem text_of_sameShape :
    ∃ bytes, machine.GivesText state a bytes ∧ other.GivesText state' b bytes := by
  have given := givesText live within
  have given' := givesText live' within'
  have same := shape.fold_eq Heap.nameless_textWalk
  rw [idle] at given
  rw [idle'] at given'
  change other.GivesText state' b (state'.heap.fold Heap.textWalk [] b) at given'
  rw [same] at given'
  exact ⟨_, given, given'⟩

theorem hash_of_sameShape :
    ∃ hash, machine.GivesHash state a hash ∧ other.GivesHash state' b hash := by
  have given := givesHash live within
  have given' := givesHash live' within'
  have same := shape.fold_eq Unfolding.nameless_walk
  rw [idle] at given
  rw [idle'] at given'
  change other.GivesHash state' b (state'.heap.fold Unfolding.walk [] b).digest at given'
  rw [same] at given'
  exact ⟨_, given, given'⟩

end

/-- **Values of one shape have the same answers.** If the boxes of builtin types that two values
reach correspond to each other, whatever their places are and whatever is in spare slots, the values
have the same text and the same hash, be it on one heap or on two, and even on machines that number
their types differently. On one heap they are found equal, unless there is NaN in them. -/
theorem same_shape_same_answers (live : machine.Live state) (idle : state.marks = .none)
    (within : state.heap.Within machine.IsBuiltin a) :
    (∀ (other : Machine) (state' : State) (b : Ref), other.Live state' → state'.marks = .none →
      state'.heap.Within other.IsBuiltin b → state.heap.SameShape state'.heap a b →
        (∃ bytes, machine.GivesText state a bytes ∧ other.GivesText state' b bytes) ∧
        ∃ hash, machine.GivesHash state a hash ∧ other.GivesHash state' b hash) ∧
    ∀ b, state.heap.Within machine.IsBuiltin b → state.heap.SameShape state.heap a b →
      (∀ ref value, state.heap.Reaches a ref → (state.heap.get ref).payload = .float value →
        value.isNaN = false) → machine.FindsEqual state a b := by
  constructor
  · intro other state' b live' idle' within' shape
    constructor
    · exact text_of_sameShape live live' idle idle' within within' shape
    · exact hash_of_sameShape live live' idle idle' within within' shape
  · rintro b within' ⟨name, bijection⟩ numbers
    have noMarks : state.marks.equality = [] := by
      rw [idle]
      rfl
    have comparable : ∀ box, machine.IsBuiltin box → machine.Comparable box :=
      fun _ builtin => builtin.ordinary _
    rw [findsEqual_iff_bisimilar live noMarks (within.mono comparable) (within'.mono comparable)]
    exact Heap.bisimilar_of_renaming bijection numbers

/-! ## Rings -/

/-- Two arrays that contain each other, whatever else they have room for. -/
structure IsRing (heap : Heap) (first second : Buffer) : Prop where
  held : (heap.get ⟨7⟩).payload = .array first
  held' : (heap.get ⟨8⟩).payload = .array second
  live : first.live = [⟨8⟩]
  live' : second.live = [⟨7⟩]

theorem IsRing.items {heap : Heap} {first second : Buffer} (ring : IsRing heap first second) :
    heap.items ⟨7⟩ = [⟨8⟩] ∧ heap.items ⟨8⟩ = [⟨7⟩] := by
  rw [Heap.items_of_array ring.held, Heap.items_of_array ring.held', ring.live, ring.live']
  exact ⟨rfl, rfl⟩

theorem IsRing.reaches_iff {heap : Heap} {first second : Buffer} (ring : IsRing heap first second)
    {root ref : Ref} (isRing : root = ⟨7⟩ ∨ root = ⟨8⟩) :
    heap.Reaches root ref ↔ ref = ⟨7⟩ ∨ ref = ⟨8⟩ := by
  obtain ⟨items, items'⟩ := ring.items
  constructor
  · intro reaches
    induction reaches with
    | refl => exact isRing
    | tail _ mem ih =>
      rcases ih with rfl | rfl
      · rw [items] at mem
        exact .inr (List.mem_singleton.1 mem)
      · rw [items'] at mem
        exact .inl (List.mem_singleton.1 mem)
  · have across : heap.Reaches ⟨7⟩ ⟨8⟩ := .single (by rw [items]; exact .head _)
    have back : heap.Reaches ⟨8⟩ ⟨7⟩ := .single (by rw [items']; exact .head _)
    rintro (rfl | rfl)
    · rcases isRing with rfl | rfl
      · exact .refl
      · exact back
    · rcases isRing with rfl | rfl
      · exact across
      · exact .refl

/-- The one array of a ring has the shape of the other. -/
theorem sameShape_ring {heap heap' : Heap} {first second first' second' : Buffer}
    (ring : IsRing heap first second) (ring' : IsRing heap' first' second') :
    heap.SameShape heap' ⟨7⟩ ⟨8⟩ := by
  let name (ref : Ref) : Ref := if ref = ⟨7⟩ then ⟨8⟩ else ⟨7⟩
  have reached : {ref | heap.Reaches ⟨7⟩ ref} = {⟨7⟩, ⟨8⟩} :=
    Set.ext fun _ => ring.reaches_iff (.inl rfl)
  have reached' : {ref | heap'.Reaches ⟨8⟩ ref} = {⟨7⟩, ⟨8⟩} :=
    Set.ext fun _ => ring'.reaches_iff (.inr rfl)
  refine ⟨name, rfl, ?_, ?_⟩
  · rw [reached, reached']
    refine ⟨?_, ?_, ?_⟩
    · rintro ref (rfl | rfl)
      · exact .inr rfl
      · exact .inl rfl
    · rintro ref (rfl | rfl) ref' (rfl | rfl) same
      · rfl
      · exact absurd same (by decide)
      · exact absurd same (by decide)
      · rfl
    · rintro ref (rfl | rfl)
      · exact ⟨⟨8⟩, .inr rfl, rfl⟩
      · exact ⟨⟨7⟩, .inl rfl, rfl⟩
  · intro ref reaches
    rcases (ring.reaches_iff (.inl rfl)).1 reaches with rfl | rfl
    · rw [ring.held]
      show Payload.Renames name _ (heap'.get ⟨8⟩).payload
      rw [ring'.held']
      exact .array (by rw [ring.live, ring'.live']; rfl)
    · rw [ring.held']
      show Payload.Renames name _ (heap'.get ⟨7⟩).payload
      rw [ring'.held]
      exact .array (by rw [ring.live', ring'.live]; rfl)

/-- Two arrays that contain each other have the same answers, also when one of them has got a spare
slot meanwhile. -/
theorem same_shape_same_answers_rings : ∃ wider : State, bare.Live wider ∧
    (wider.heap.get ⟨8⟩).payload = .array ⟨#[⟨7⟩, ⟨6⟩], 1⟩ ∧
    (∃ bytes, bare.GivesText ringState ⟨7⟩ bytes ∧ bare.GivesText wider ⟨8⟩ bytes) ∧
    (∃ hash, bare.GivesHash ringState ⟨7⟩ hash ∧ bare.GivesHash wider ⟨8⟩ hash) ∧
    bare.FindsEqual ringState ⟨7⟩ ⟨8⟩ := by
  let wider : State :=
    { ringState with heap := ringState.heap.setPayload ⟨8⟩ (.array ⟨#[⟨7⟩, ⟨6⟩], 1⟩) }
  have live : bare.Live wider :=
    ⟨live_ringState.complete, live_ringState.shares.persists (Heap.persists_setPayload rfl rfl)⟩
  have ring : IsRing ringState.heap ⟨#[⟨8⟩], 1⟩ ⟨#[⟨7⟩], 1⟩ := ⟨rfl, rfl, rfl, rfl⟩
  have ring' : IsRing wider.heap ⟨#[⟨8⟩], 1⟩ ⟨#[⟨7⟩, ⟨6⟩], 1⟩ := ⟨rfl, rfl, rfl, rfl⟩
  have within : wider.heap.Within bare.IsBuiltin ⟨8⟩ := by
    intro ref reaches
    rcases (ring'.reaches_iff (.inr rfl)).1 reaches with rfl | rfl
    · exact ⟨_, rfl, .array, rfl, rfl⟩
    · exact ⟨_, rfl, .array, rfl, rfl⟩
  obtain ⟨same, equal⟩ :=
    same_shape_same_answers live_ringState rfl (within_rings (by decide : (⟨7⟩ : Ref) ∈ rings))
  obtain ⟨text, hash⟩ := same bare wider ⟨8⟩ live rfl within (sameShape_ring ring ring')
  refine ⟨wider, live, rfl, text, hash, ?_⟩
  refine equal ⟨8⟩ (within_rings (by decide)) (sameShape_ring ring ring) ?_
  intro ref value reaches held
  rcases (ring.reaches_iff (.inl rfl)).1 reaches with rfl | rfl
  · rw [ring.held] at held
    cases held
  · rw [ring.held'] at held
    cases held

end Machine

end BoxedValues
