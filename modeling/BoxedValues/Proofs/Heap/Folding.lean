import BoxedValues.Proofs.Heap.Graph

/-!
# Folding a graph

Texts and hashes come from one walk through a graph, which cuts an array off where it is met within
itself. `Heap.fold` is this walk; a `Walk` says what it makes of the values that it meets. What it
does at one value is said by `fold_array` and `fold_leaf`.
-/

set_option autoImplicit false

namespace BoxedValues

/-- What a walk makes of a value other than an array, of an array within itself, whose elements it
does not walk through, and of an array whose elements it has walked through. -/
structure Walk (α : Type) where
  leaf : Ref → Payload → α
  cut : List Ref → α
  node : List α → α

namespace Heap

variable {α : Type}

/-- The result of a walk from a value, inside the arrays in `inside`. -/
def fold (heap : Heap) (walk : Walk α) (inside : List Ref) (value : Ref) : α :=
  match _held : (heap.get value).payload with
  | .array buffer =>
    if _within : value ∈ inside then walk.cut buffer.live
    else walk.node (buffer.live.map fun item => heap.fold walk (value :: inside) item)
  | payload => walk.leaf value payload
termination_by unmarked heap.refs inside
decreasing_by exact unmarked_cons_lt (mem_refs_of_array _held) _within

variable {heap : Heap} {walk : Walk α} {inside : List Ref} {value : Ref}

theorem fold_array {buffer : Buffer} (held : (heap.get value).payload = .array buffer) :
    heap.fold walk inside value =
      if value ∈ inside then walk.cut buffer.live
      else walk.node (buffer.live.map (heap.fold walk (value :: inside))) := by
  rw [fold]
  split
  · rename_i found same
    rw [held] at same
    cases same
    by_cases within : value ∈ inside
    · rw [dif_pos within, if_pos within]
    · rw [dif_neg within, if_neg within]
  · rename_i differ
    exact absurd held (differ buffer)

theorem fold_leaf (leaf : ∀ buffer, (heap.get value).payload ≠ .array buffer) :
    heap.fold walk inside value = walk.leaf value (heap.get value).payload := by
  rw [fold]
  split
  · rename_i buffer held
    exact absurd held (leaf buffer)
  · rfl

/-- Neither spare slots nor the order of the arrays that a walk is inside make a difference. -/
theorem fold_congr {other : Heap} {others : List Ref} (mirrors : heap.Mirrors other value)
    (same : ∀ ref, ref ∈ others ↔ ref ∈ inside) :
    other.fold walk others value = heap.fold walk inside value := by
  -- The two walks enter the same arrays, so what the one has not entered counts for both.
  induction remaining : unmarked heap.refs inside using Nat.strong_induction_on
    generalizing inside others value with
  | _ remaining ih =>
    subst remaining
    have resembles := mirrors.self
    cases held : (heap.get value).payload with
    | array buffer =>
      rw [held] at resembles
      cases held' : (other.get value).payload with
      | array buffer' =>
        rw [held'] at resembles
        change buffer'.live = buffer.live at resembles
        rw [fold_array held, fold_array held', resembles]
        by_cases within : value ∈ inside
        · rw [if_pos within, if_pos ((same value).2 within)]
        · rw [if_neg within, if_neg (mt (same value).1 within)]
          congr 1
          apply List.map_congr_left
          intro item mem
          refine ih _ (unmarked_cons_lt (mem_refs_of_array held) within)
            (mirrors.of_mem (by rwa [items_of_array held])) ?_ rfl
          intro ref
          rw [List.mem_cons, List.mem_cons, same]
      | _ =>
        rw [held'] at resembles
        cases resembles
    | _ =>
      rw [held] at resembles
      change (other.get value).payload = _ at resembles
      rw [fold_leaf (by rw [resembles]; exact fun _ => Payload.noConfusion)]
      rw [fold_leaf (by rw [held]; exact fun _ => Payload.noConfusion), held, resembles]

/-- Arrays that the walk never comes to make no difference. -/
theorem fold_append {others : List Ref} (apart : ∀ ref ∈ others, ¬heap.Reaches value ref) :
    heap.fold walk (inside ++ others) value = heap.fold walk inside value := by
  induction remaining : unmarked heap.refs inside using Nat.strong_induction_on
    generalizing inside value with
  | _ remaining ih =>
    subst remaining
    by_cases array : ∃ buffer, (heap.get value).payload = .array buffer
    · obtain ⟨buffer, held⟩ := array
      have elsewhere : value ∉ others := fun mem => apart value mem (reaches_self heap value)
      rw [fold_array held, fold_array held]
      by_cases within : value ∈ inside
      · rw [if_pos within, if_pos (List.mem_append_left others within)]
      · rw [if_neg within, if_neg (by simp [within, elsewhere])]
        congr 1
        apply List.map_congr_left
        intro item mem
        refine ih _ (unmarked_cons_lt (mem_refs_of_array held) within) (fun ref other reaches => ?_) rfl
        exact apart ref other (.of_item (by rwa [items_of_array held]) reaches)
    · rw [fold_leaf fun buffer held => array ⟨buffer, held⟩,
        fold_leaf fun buffer held => array ⟨buffer, held⟩]

end Heap

end BoxedValues
