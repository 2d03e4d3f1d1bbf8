import BoxedValues.Proofs.Equality.Bisimilarity

/-!
# Comparing graphs by walking through them

`Heap.agree` compares two values by a walk through both graphs at once. A pair of arrays that the
walk is already inside is taken to be equal; nothing else is remembered, and an assumption ends
with the comparison of the pair that it is about.

* `agree_of_bisimilar`: the walk never finds a difference between bisimilar values, whatever it
  assumes;
* `agree_nil_iff_bisimilar`: **without assumptions at the start it decides bisimilarity**.

The second direction is about the shallowest difference: no pair on the way to it can differ in
fewer steps, so none of the assumptions made on that way hides it.
-/

set_option autoImplicit false

namespace BoxedValues

/-- Whether two payloads other than arrays are equal. Arrays and records never are. -/
def Payload.equals : Payload → Payload → Bool
  | .none, .none => true
  | .bool x, .bool y => x == y
  | .int x, .int y => x == y
  | .float x, .float y => x.ieeeEq y
  | .string x, .string y => x == y
  | _, _ => false

theorem Payload.Similar.of_equals {R : Ref → Ref → Prop} {p q : Payload}
    (h : p.equals q = true) : Similar R p q := by
  unfold equals at h
  split at h
  · exact .none
  · rw [beq_iff_eq] at h
    rw [h]
    exact .bool _
  · rw [beq_iff_eq] at h
    rw [h]
    exact .int _
  · exact .float h
  · rw [beq_iff_eq] at h
    rw [h]
    exact .string _
  · cases h

namespace Heap

/-- Whether a walk from two values at once finds no difference. The pairs in `assumed` are those
that the walk is inside. -/
def agree (heap : Heap) (assumed : List (Ref × Ref)) (a b : Ref) : Bool :=
  if a = b then true
  else
    match _held : (heap.get a).payload, _held' : (heap.get b).payload with
    | .array buffer, .array other =>
      if _inside : (a, b) ∈ assumed then true
      else
        decide (buffer.live.length = other.live.length) &&
          (buffer.live.zip other.live).all fun pair =>
            heap.agree ((a, b) :: assumed) pair.1 pair.2
    | p, q => p.equals q
termination_by unmarked heap.pairs assumed
decreasing_by exact unmarked_cons_lt (mem_pairs_of_arrays _held _held') _inside

variable {heap : Heap} {assumed : List (Ref × Ref)} {a b : Ref}

theorem agree_self (heap : Heap) (assumed : List (Ref × Ref)) (a : Ref) :
    heap.agree assumed a a = true := by
  rw [agree, if_pos rfl]

theorem agree_arrays {buffer other : Buffer} (ne : a ≠ b)
    (held : (heap.get a).payload = .array buffer) (held' : (heap.get b).payload = .array other) :
    heap.agree assumed a b =
      (decide ((a, b) ∈ assumed) || (decide (buffer.live.length = other.live.length) &&
        (buffer.live.zip other.live).all fun pair =>
          heap.agree ((a, b) :: assumed) pair.1 pair.2)) := by
  rw [agree, if_neg ne]
  split
  · rename_i x y hx hy
    rw [held] at hx
    rw [held'] at hy
    cases hx
    cases hy
    by_cases inside : (a, b) ∈ assumed
    · rw [dif_pos inside]
      simp only [inside, decide_true, Bool.true_or]
    · rw [dif_neg inside]
      simp only [inside, decide_false, Bool.false_or]
  · rename_i differ
    exact absurd held' (differ buffer other held)

theorem agree_others (ne : a ≠ b)
    (other : ∀ buffer others, (heap.get a).payload = .array buffer →
      (heap.get b).payload ≠ .array others) :
    heap.agree assumed a b = (heap.get a).payload.equals (heap.get b).payload := by
  rw [agree, if_neg ne]
  split
  · rename_i x y hx hy
    exact absurd hy (other x y hx)
  · rfl

/-- Bisimilar values are found equal under any assumptions. -/
theorem agree_of_bisimilar (h : heap.Bisimilar a b) : heap.agree assumed a b = true := by
  -- By induction on the number of pairs that the walk is not inside.
  generalize size : unmarked heap.pairs assumed = n
  induction n using Nat.strong_induction_on generalizing assumed a b with
  | _ n ih =>
    by_cases same : a = b
    · rw [same, agree_self]
    have similar := (heap.isBisimulation_bisimilar a b h).resolve_left same
    generalize held : (heap.get a).payload = p at similar
    generalize held' : (heap.get b).payload = q at similar
    have scalar : (∀ buffer, p ≠ .array buffer) → heap.agree assumed a b = p.equals q := by
      intro other
      rw [agree_others same fun buffer _ h _ => other buffer (held.symm.trans h), held, held']
    cases similar with
    | array items =>
      rename_i buffer other
      rw [agree_arrays same held held']
      by_cases inside : (a, b) ∈ assumed
      · simp [inside]
      have smaller := unmarked_cons_lt (mem_pairs_of_arrays held held') inside
      rw [size] at smaller
      have each : ∀ pair ∈ buffer.live.zip other.live,
          heap.agree ((a, b) :: assumed) pair.1 pair.2 = true := fun pair mem =>
        ih _ smaller (List.forall₂_iff_zip.1 items |>.2 mem) rfl
      simp only [inside, items.length_eq, List.all_eq_true.2 each, decide_true, decide_false,
        Bool.false_or, Bool.and_true]
    | none => exact scalar fun _ => Payload.noConfusion
    | bool value => rw [scalar fun _ => Payload.noConfusion]; exact beq_self_eq_true value
    | int value => rw [scalar fun _ => Payload.noConfusion]; exact beq_self_eq_true value
    | float equal => rw [scalar fun _ => Payload.noConfusion]; exact equal
    | string bytes => rw [scalar fun _ => Payload.noConfusion]; exact beq_self_eq_true bytes

/-- A difference at some depth is found, unless an assumption already has one at that depth. -/
theorem agree_eq_false (assumed : List (Ref × Ref)) {depth : Nat} (differ : ¬heap.AlikeTo depth a b)
    (sound : ∀ pair ∈ assumed, heap.AlikeTo depth pair.1 pair.2) :
    heap.agree assumed a b = false := by
  induction depth generalizing assumed a b with
  | zero => exact absurd trivial differ
  | succ depth ih =>
    have shallower : ∀ pair ∈ assumed, heap.AlikeTo depth pair.1 pair.2 :=
      fun pair mem => (sound pair mem).of_succ
    by_cases alike : heap.AlikeTo depth a b
    · -- The pair differs at this depth and no earlier one, so it may be assumed further down.
      obtain ⟨ne, unlike⟩ := not_or.1 differ
      by_cases arrays : ∃ buffer other, (heap.get a).payload = .array buffer ∧
          (heap.get b).payload = .array other
      · obtain ⟨buffer, other, held, held'⟩ := arrays
        have outside : (a, b) ∉ assumed := fun mem => differ (sound _ mem)
        rw [agree_arrays ne held held']
        by_cases lengths : buffer.live.length = other.live.length
        · obtain ⟨pair, mem, unlikePair⟩ : ∃ pair ∈ buffer.live.zip other.live,
              ¬heap.AlikeTo depth pair.1 pair.2 := by
            by_contra none
            push Not at none
            rw [held, held'] at unlike
            exact unlike (.array (List.forall₂_iff_zip.2 ⟨lengths, fun mem => none _ mem⟩))
          have found : heap.agree ((a, b) :: assumed) pair.1 pair.2 = false := by
            apply ih _ unlikePair
            intro assumption mem
            rcases List.mem_cons.1 mem with rfl | mem
            · exact alike
            · exact shallower assumption mem
          have some : ((buffer.live.zip other.live).all fun pair =>
              heap.agree ((a, b) :: assumed) pair.1 pair.2) = false :=
            List.all_eq_false.2 ⟨pair, mem, by rw [found]; exact Bool.false_ne_true⟩
          simp only [outside, some, decide_false, Bool.and_false, Bool.or_false]
        · simp only [outside, lengths, decide_false, Bool.false_and, Bool.or_false]
      · rw [agree_others ne fun buffer other held held' => arrays ⟨buffer, other, held, held'⟩]
        exact Bool.eq_false_iff.2 fun equal => unlike (.of_equals equal)
    · exact ih _ alike shallower

/-- **The walk decides bisimilarity.** -/
theorem agree_nil_iff_bisimilar : heap.agree [] a b = true ↔ heap.Bisimilar a b := by
  constructor
  · intro agrees
    rw [bisimilar_iff_alikeTo]
    intro depth
    by_contra differ
    have found := agree_eq_false [] differ fun _ mem => nomatch mem
    rw [agrees] at found
    cases found
  · exact agree_of_bisimilar

/-- Assumptions that the walk never gets to make no difference. -/
theorem agree_append {others : List (Ref × Ref)}
    (apart : ∀ pair ∈ others, ¬heap.Reaches a pair.1) :
    heap.agree (assumed ++ others) a b = heap.agree assumed a b := by
  induction remaining : unmarked heap.pairs assumed using Nat.strong_induction_on
    generalizing assumed a b with
  | _ remaining ih =>
    subst remaining
    by_cases same : a = b
    · rw [same, agree_self, agree_self]
    by_cases arrays : ∃ buffer other, (heap.get a).payload = .array buffer ∧
        (heap.get b).payload = .array other
    · obtain ⟨buffer, other, held, held'⟩ := arrays
      have elsewhere : (a, b) ∉ others := fun mem => apart _ mem (reaches_self heap a)
      rw [agree_arrays same held held', agree_arrays same held held']
      by_cases inside : (a, b) ∈ assumed
      · simp [inside]
      · have each : ∀ pair ∈ buffer.live.zip other.live,
            heap.agree ((a, b) :: assumed ++ others) pair.1 pair.2 =
              heap.agree ((a, b) :: assumed) pair.1 pair.2 := by
          intro pair mem
          have item : pair.1 ∈ heap.items a := by
            rw [items_of_array held]
            exact (List.of_mem_zip mem).1
          exact ih _ (unmarked_cons_lt (mem_pairs_of_arrays held held') inside)
            (fun entry other reaches => apart entry other (.of_item item reaches)) rfl
        have all : ((buffer.live.zip other.live).all fun pair =>
              heap.agree ((a, b) :: (assumed ++ others)) pair.1 pair.2) =
            (buffer.live.zip other.live).all fun pair =>
              heap.agree ((a, b) :: assumed) pair.1 pair.2 := by
          rw [Bool.eq_iff_iff, List.all_eq_true, List.all_eq_true]
          exact forall₂_congr fun pair mem => by rw [← each pair mem, List.cons_append]
        simp only [List.mem_append, inside, elsewhere, or_self, decide_false, Bool.false_or, all]
    · rw [agree_others same fun buffer other held held' => arrays ⟨buffer, other, held, held'⟩,
        agree_others same fun buffer other held held' => arrays ⟨buffer, other, held, held'⟩]

end Heap

end BoxedValues
