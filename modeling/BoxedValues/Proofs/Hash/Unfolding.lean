import BoxedValues.Machine.CommonMethods
import BoxedValues.Proofs.Equality.Bisimilarity
import BoxedValues.Proofs.Heap.Folding

/-!
# What a hash is made of

The hash of a value is a digest of an unfolding: the tree of tagged octets that the walk through its
elements meets, with a cut where it comes back to an array that it is inside.

* `Heap.InStep`: two walks, each through a graph of its own, make their cuts at the same places;
* `unfolding_eq_iff_inStep`: **values with equal contents have equal unfoldings exactly if the
  walks through them are in step**;
* `inStep_of_acyclic`: without cycles they always are.

Values with equal contents need not be in step: arrays that unfold to the same infinite tree can
come back to themselves after different numbers of steps.
-/

set_option autoImplicit false

namespace BoxedValues

/-- A value as its hash sees it. -/
inductive Unfolding where
  /-- A value other than an array, with the octets of its contents or its identity. -/
  | leaf (tag : Hash.Tag) (octets : Bytes)
  /-- An array within itself. -/
  | cut
  | node (items : List Unfolding)

namespace Unfolding

mutual

/-- The hash of an unfolding. -/
def digest : Unfolding → Int64
  | .leaf tag octets => Hash.tagged tag octets
  | .cut => Engine.cycleHash
  | .node items => Hash.ofElements (digests items)

/-- The hashes of unfoldings in order. -/
def digests : List Unfolding → List Int64
  | [] => []
  | item :: rest => item.digest :: digests rest

end

theorem digests_eq_map (items : List Unfolding) : digests items = items.map digest := by
  induction items with
  | nil => rfl
  | cons item items ih => rw [digests, ih, List.map_cons]

/-- The unfolding of a value that has no elements. -/
def ofLeaf (value : Ref) : Payload → Unfolding
  | .none => .leaf .none []
  | .bool value => .leaf .bool [if value then 1 else 0]
  | .int value => .leaf .int (Hash.wordBytes value.toUInt64)
  | .float value => .leaf .float (Hash.wordBytes value.unsignedZero.bits)
  | .string bytes => .leaf .string bytes
  | .array _ => .cut
  | .record _ => .leaf .identity (Hash.wordBytes (.ofNat value.index))

/-- The walk that makes unfoldings. -/
def walk : Walk Unfolding := ⟨ofLeaf, fun _ => .cut, .node⟩

/-- Values without elements and with equal contents have one unfolding. -/
theorem ofLeaf_eq_of_similar {R : Ref → Ref → Prop} {p q : Payload} (a b : Ref)
    (similar : Payload.Similar R p q) (leaf : ∀ buffer, p ≠ .array buffer) :
    ofLeaf a p = ofLeaf b q := by
  cases similar with
  | none => rfl
  | bool value => rfl
  | int value => rfl
  | float same => simp only [ofLeaf, Double.unsignedZero_eq_of_ieeeEq same]
  | string bytes => rfl
  | array items => exact absurd rfl (leaf _)

end Unfolding

namespace Heap

/-- The unfolding of a value. -/
def unfolding (heap : Heap) (value : Ref) : Unfolding := heap.fold Unfolding.walk [] value

/-! ## Two walks at once -/

/-- Where two walks are, and the pairs of arrays on their ways, innermost first. -/
structure Places where
  first : Ref
  second : Ref
  trail : List (Ref × Ref)

namespace Places

/-- The arrays that the first walk is inside. -/
def firstInside (places : Places) : List Ref := places.trail.map Prod.fst

/-- The arrays that the second walk is inside. -/
def secondInside (places : Places) : List Ref := places.trail.map Prod.snd

/-- Both walks have just come back to an array that they are inside, or neither has. -/
def InStep (places : Places) : Prop :=
  places.first ∈ places.firstInside ↔ places.second ∈ places.secondInside

end Places

/-- Both walks go on to elements at the same place. -/
inductive Onward (heap : Heap) : Places → Places → Prop where
  | into {first second item other : Ref} {trail : List (Ref × Ref)} :
      first ∉ trail.map Prod.fst → second ∉ trail.map Prod.snd →
        (item, other) ∈ (heap.items first).zip (heap.items second) →
          Onward heap ⟨first, second, trail⟩ ⟨item, other, (first, second) :: trail⟩

/-- Wherever two walks get together, they are in step. -/
def InStepFrom (heap : Heap) (places : Places) : Prop :=
  ∀ later, Relation.ReflTransGen heap.Onward places later → later.InStep

/-- Two walks that begin at the values are always in step. -/
def InStep (heap : Heap) (a b : Ref) : Prop := heap.InStepFrom ⟨a, b, []⟩

variable {heap : Heap} {a b : Ref}

/-- Two values with equal contents are arrays of such values, or have no elements. -/
theorem Bisimilar.arrays_or_leaves (h : heap.Bisimilar a b) :
    (∃ buffer other, (heap.get a).payload = .array buffer ∧ (heap.get b).payload = .array other ∧
        List.Forall₂ heap.Bisimilar buffer.live other.live) ∨
      (∀ buffer, (heap.get a).payload ≠ .array buffer) ∧
        (∀ buffer, (heap.get b).payload ≠ .array buffer) ∧
          Unfolding.ofLeaf a (heap.get a).payload = Unfolding.ofLeaf b (heap.get b).payload := by
  rcases heap.isBisimulation_bisimilar a b h with rfl | similar
  · by_cases array : ∃ buffer, (heap.get a).payload = .array buffer
    · obtain ⟨buffer, held⟩ := array
      exact .inl ⟨buffer, buffer, held, held, List.forall₂_same.2 fun item _ => .refl heap item⟩
    · have leaf : ∀ buffer, (heap.get a).payload ≠ .array buffer :=
        fun buffer held => array ⟨buffer, held⟩
      exact .inr ⟨leaf, leaf, rfl⟩
  · by_cases array : ∃ buffer, (heap.get a).payload = .array buffer
    · obtain ⟨buffer, held⟩ := array
      rw [held] at similar
      generalize held' : (heap.get b).payload = q at similar
      cases similar with
      | array items => exact .inl ⟨buffer, _, held, rfl, items⟩
    · have leaf : ∀ buffer, (heap.get a).payload ≠ .array buffer :=
        fun buffer held => array ⟨buffer, held⟩
      refine .inr ⟨leaf, fun other held' => ?_, Unfolding.ofLeaf_eq_of_similar a b similar leaf⟩
      rw [held'] at similar
      generalize held : (heap.get a).payload = p at similar leaf
      cases similar with
      | array items => exact leaf _ rfl

theorem inStepFrom_of_no_pairs {trail : List (Ref × Ref)}
    (none : (heap.items a).zip (heap.items b) = []) (here : Places.InStep ⟨a, b, trail⟩) :
    heap.InStepFrom ⟨a, b, trail⟩ := by
  intro later reaches
  cases reaches.cases_head with
  | inl same => rwa [← same]
  | inr onward =>
    obtain ⟨_, step, _⟩ := onward
    cases step with
    | into _ _ mem =>
      rw [none] at mem
      cases mem

/-- Walks inside no array that they have come to are in step if they are from then on. -/
theorem inStepFrom_iff_of_fresh {trail : List (Ref × Ref)} (fresh : a ∉ trail.map Prod.fst)
    (fresh' : b ∉ trail.map Prod.snd) : heap.InStepFrom ⟨a, b, trail⟩ ↔
      ∀ {item other}, (item, other) ∈ (heap.items a).zip (heap.items b) →
        heap.InStepFrom ⟨item, other, (a, b) :: trail⟩ := by
  constructor
  · intro h item other mem later reaches
    exact h later (.head (.into fresh fresh' mem) reaches)
  · intro h later reaches
    cases reaches.cases_head with
    | inl same =>
      rw [← same]
      exact iff_of_false fresh fresh'
    | inr onward =>
      obtain ⟨_, step, rest⟩ := onward
      cases step with
      | into _ _ mem => exact h mem later rest

theorem inStepFrom_of_within {trail : List (Ref × Ref)} (within : a ∈ trail.map Prod.fst)
    (within' : b ∈ trail.map Prod.snd) : heap.InStepFrom ⟨a, b, trail⟩ := by
  intro later reaches
  cases reaches.cases_head with
  | inl same =>
    rw [← same]
    exact iff_of_true within within'
  | inr onward =>
    obtain ⟨_, step, _⟩ := onward
    cases step with
    | into fresh _ _ => exact absurd within fresh

/-- From anywhere on, walks through equal contents have equal unfoldings exactly if they are in
step. -/
theorem fold_eq_iff_inStepFrom (trail : List (Ref × Ref)) (h : heap.Bisimilar a b)
    (entered : ∀ pair ∈ trail, heap.items pair.1 ≠ [] ∧ heap.items pair.2 ≠ []) :
    heap.fold Unfolding.walk (trail.map Prod.fst) a =
        heap.fold Unfolding.walk (trail.map Prod.snd) b ↔
      heap.InStepFrom ⟨a, b, trail⟩ := by
  -- By induction on the number of boxes that the first walk is not inside.
  generalize size : unmarked heap.refs (trail.map Prod.fst) = n
  induction n using Nat.strong_induction_on generalizing a b trail with
  | _ n ih =>
    rcases h.arrays_or_leaves with ⟨buffer, other, held, held', items⟩ | ⟨leaf, leaf', same⟩
    · rw [fold_array held, fold_array held']
      by_cases within : a ∈ trail.map Prod.fst
      · by_cases within' : b ∈ trail.map Prod.snd
        · rw [if_pos within, if_pos within']
          exact iff_of_true rfl (inStepFrom_of_within within within')
        · rw [if_pos within, if_neg within']
          exact iff_of_false Unfolding.noConfusion fun inStep =>
            within' ((inStep _ .refl).1 within)
      · by_cases within' : b ∈ trail.map Prod.snd
        · rw [if_neg within, if_pos within']
          exact iff_of_false Unfolding.noConfusion fun inStep =>
            within ((inStep _ .refl).2 within')
        · rw [if_neg within, if_neg within', inStepFrom_iff_of_fresh within within']
          have smaller : unmarked heap.refs (a :: trail.map Prod.fst) < n :=
            size ▸ unmarked_cons_lt (mem_refs_of_array held) within
          rw [items_of_array held, items_of_array held']
          have each : ∀ {item item'}, (item, item') ∈ buffer.live.zip other.live →
              (heap.fold Unfolding.walk (a :: trail.map Prod.fst) item =
                  heap.fold Unfolding.walk (b :: trail.map Prod.snd) item' ↔
                heap.InStepFrom ⟨item, item', (a, b) :: trail⟩) := by
            intro item item' mem
            refine ih _ smaller ((a, b) :: trail) ((List.forall₂_iff_zip.1 items).2 mem) ?_ rfl
            intro pair entry
            rcases List.mem_cons.1 entry with rfl | earlier
            · rw [items_of_array held, items_of_array held']
              obtain ⟨first, second⟩ := List.of_mem_zip mem
              exact ⟨List.ne_nil_of_mem first, List.ne_nil_of_mem second⟩
            · exact entered pair earlier
          show Unfolding.node _ = Unfolding.node _ ↔ _
          rw [Unfolding.node.injEq, ← List.forall₂_eq_eq_eq, List.forall₂_map_left_iff,
            List.forall₂_map_right_iff, List.forall₂_iff_zip]
          constructor
          · intro h item item' mem
            exact (each mem).1 (h.2 mem)
          · intro h
            exact ⟨items.length_eq, fun mem => (each mem).2 (h mem)⟩
    · rw [fold_leaf leaf, fold_leaf leaf']
      refine iff_of_true same (inStepFrom_of_no_pairs ?_ (iff_of_false ?_ ?_))
      · rw [items_of_leaf leaf, List.zip_nil_left]
      · intro within
        obtain ⟨pair, mem, rfl⟩ := List.mem_map.1 within
        exact (entered pair mem).1 (items_of_leaf leaf)
      · intro within
        obtain ⟨pair, mem, rfl⟩ := List.mem_map.1 within
        exact (entered pair mem).2 (items_of_leaf leaf')

/-- **Values with equal contents have equal unfoldings exactly if they are in step.** -/
theorem unfolding_eq_iff_inStep (h : heap.Bisimilar a b) :
    heap.unfolding a = heap.unfolding b ↔ heap.InStep a b :=
  fold_eq_iff_inStepFrom [] h fun _ mem => nomatch mem

/-! ## Values without cycles -/

/-- No array that the value reaches contains itself, at any depth. -/
def Acyclic (heap : Heap) (value : Ref) : Prop :=
  ∀ holder, heap.Reaches value holder → ∀ item ∈ heap.items holder, ¬heap.Reaches item holder

/-- What a value reaches has no cycles on another heap that is the same there. -/
theorem Acyclic.of_mirrors {other : Heap} {value : Ref} (acyclic : heap.Acyclic value)
    (mirrors : heap.Mirrors other value) : other.Acyclic value := by
  intro holder reaches item mem back
  have before := mirrors.reaches reaches
  have further : heap.Mirrors other holder := fun ref onward => mirrors ref (before.trans onward)
  rw [further.items] at mem
  exact acyclic holder before item mem ((further.of_mem mem).reaches back)

/-- A walk has come from the value to the reference through the arrays that it is inside. -/
structure Descends (heap : Heap) (value : Ref) (inside : List Ref) (ref : Ref) : Prop where
  reaches : heap.Reaches value ref
  through : ∀ holder ∈ inside, heap.Reaches value holder ∧
    ∃ item ∈ heap.items holder, heap.Reaches item ref

variable {value ref item : Ref} {inside : List Ref}

theorem Descends.into (h : heap.Descends value inside ref) (mem : item ∈ heap.items ref) :
    heap.Descends value (ref :: inside) item := by
  constructor
  · exact h.reaches.tail mem
  · intro holder entered
    rcases List.mem_cons.1 entered with rfl | earlier
    · exact ⟨h.reaches, item, mem, reaches_self heap item⟩
    · obtain ⟨reaches, next, nextMem, further⟩ := h.through holder earlier
      exact ⟨reaches, next, nextMem, further.tail mem⟩

/-- A walk through a value without cycles never comes back to where it has been. -/
theorem Descends.notMem (h : heap.Descends value inside ref) (acyclic : heap.Acyclic value) :
    ref ∉ inside := by
  intro mem
  obtain ⟨reaches, item, itemMem, back⟩ := h.through ref mem
  exact acyclic ref reaches item itemMem back

/-- Two walks at once are two walks. -/
theorem descends_of_onward {later : Places}
    (onward : Relation.ReflTransGen heap.Onward ⟨a, b, []⟩ later) :
    heap.Descends a later.firstInside later.first ∧
      heap.Descends b later.secondInside later.second := by
  induction onward with
  | refl =>
    constructor
    · exact ⟨reaches_self heap a, fun _ mem => nomatch mem⟩
    · exact ⟨reaches_self heap b, fun _ mem => nomatch mem⟩
  | tail _ step ih =>
    obtain ⟨first, second⟩ := ih
    cases step with
    | into _ _ mem =>
      obtain ⟨mem, mem'⟩ := List.of_mem_zip mem
      exact ⟨first.into mem, second.into mem'⟩

/-- **Values without cycles are in step.** -/
theorem inStep_of_acyclic (acyclic : heap.Acyclic a) (acyclic' : heap.Acyclic b) :
    heap.InStep a b := by
  intro later onward
  obtain ⟨first, second⟩ := descends_of_onward onward
  exact iff_of_false (first.notMem acyclic) (second.notMem acyclic')

end Heap

end BoxedValues
