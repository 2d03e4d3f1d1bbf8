import BoxedValues.Proofs.Equality.Bisimilarity
import BoxedValues.Proofs.Heap.Folding
import Mathlib.Data.Set.Function

/-!
# Graphs of one shape

Two values have one shape if the boxes that they reach differ in nothing but their places on the
heap: a bijection leads from the ones to the others, scalars and strings are the same to the bit,
and arrays hold the images of their elements in order. What an array has room for, and what is in
its spare slots, may differ.

* `fold_renamed`: a walk that looks at no place makes the same of both values, wherever it came
  through;
* `bisimilar_of_renaming`: without NaN, values of one shape on one heap have equal contents.
-/

set_option autoImplicit false

namespace BoxedValues

/-- The payloads are the same but for the names of elements. Records are not compared this way. -/
inductive Payload.Renames (name : Ref → Ref) : Payload → Payload → Prop where
  | none : Renames name .none .none
  | bool (value : Bool) : Renames name (.bool value) (.bool value)
  | int (value : Int64) : Renames name (.int value) (.int value)
  | float (value : Double) : Renames name (.float value) (.float value)
  | string (bytes : Bytes) : Renames name (.string bytes) (.string bytes)
  | array {buffer other : Buffer} : other.live = buffer.live.map name →
      Renames name (.array buffer) (.array other)

/-- The walk looks at no reference, except those of records. -/
structure Walk.Nameless {α : Type} (walk : Walk α) : Prop where
  leaf : ∀ (ref other : Ref) (payload : Payload), payload.kind ≠ .record →
    walk.leaf ref payload = walk.leaf other payload
  cut : ∀ (name : Ref → Ref) (items : List Ref), walk.cut (items.map name) = walk.cut items

namespace Heap

/-- The bijection leads from the boxes that `a` reaches to those that `b` reaches on another heap. -/
structure Renaming (heap other : Heap) (a b : Ref) (name : Ref → Ref) : Prop where
  root : name a = b
  bijective : Set.BijOn name {ref | heap.Reaches a ref} {ref | other.Reaches b ref}
  payload : ∀ ref, heap.Reaches a ref →
    Payload.Renames name (heap.get ref).payload (other.get (name ref)).payload

/-- Some bijection leads from the one value to the other. -/
def SameShape (heap other : Heap) (a b : Ref) : Prop := ∃ name, heap.Renaming other a b name

variable {α : Type} {heap other : Heap} {a b value : Ref} {name : Ref → Ref} {walk : Walk α}

/-- A walk meets an array within itself at the same places in both graphs. -/
theorem Renaming.mem_map_iff (h : heap.Renaming other a b name) {inside : List Ref}
    (through : ∀ ref ∈ inside, heap.Reaches a ref) (reaches : heap.Reaches a value) :
    name value ∈ inside.map name ↔ value ∈ inside := by
  constructor
  · intro mem
    obtain ⟨ref, entered, same⟩ := List.mem_map.1 mem
    have here : ref = value := h.bijective.injOn (through ref entered) reaches same
    rwa [← here]
  · exact List.mem_map_of_mem

/-- **A walk that looks at no place makes the same of both graphs.** -/
theorem fold_renamed (nameless : walk.Nameless) (h : heap.Renaming other a b name)
    {inside : List Ref} (through : ∀ ref ∈ inside, heap.Reaches a ref)
    (reaches : heap.Reaches a value) :
    other.fold walk (inside.map name) (name value) = heap.fold walk inside value := by
  -- By induction on the boxes that the first walk is not inside: the second one is inside their
  -- images, so both enter and cut together.
  induction remaining : unmarked heap.refs inside using Nat.strong_induction_on
    generalizing inside value with
  | _ remaining ih =>
    subst remaining
    have renames := h.payload value reaches
    generalize held : (heap.get value).payload = p at renames
    generalize held' : (other.get (name value)).payload = q at renames
    have leaf (noArray : ∀ buffer, p ≠ .array buffer) (same : q = p) (kind : p.kind ≠ .record) :
        other.fold walk (inside.map name) (name value) = heap.fold walk inside value := by
      rw [fold_leaf (by rw [held', same]; exact noArray), fold_leaf (by rw [held]; exact noArray)]
      rw [held, held', same]
      exact nameless.leaf _ _ _ kind
    cases renames with
    | array items =>
      rename_i buffer buffer'
      rw [fold_array held, fold_array held', items, List.map_map]
      by_cases within : value ∈ inside
      · rw [if_pos within, if_pos ((h.mem_map_iff through reaches).2 within)]
        exact nameless.cut name buffer.live
      · rw [if_neg within, if_neg (mt (h.mem_map_iff through reaches).1 within)]
        congr 1
        apply List.map_congr_left
        intro item mem
        have further : heap.Reaches a item := .tail reaches (by rwa [items_of_array held])
        have entered : ∀ ref ∈ value :: inside, heap.Reaches a ref := by
          intro ref mem
          rcases List.mem_cons.1 mem with rfl | earlier
          · exact reaches
          · exact through ref earlier
        exact ih _ (unmarked_cons_lt (mem_refs_of_array held) within) entered further rfl
    | _ => exact leaf (fun _ => Payload.noConfusion) rfl Kind.noConfusion

/-- A walk that has come through nothing yet makes the same of two values of one shape. -/
theorem SameShape.fold_eq (nameless : walk.Nameless) (shape : heap.SameShape other a b) :
    other.fold walk [] b = heap.fold walk [] a := by
  obtain ⟨name, bijection⟩ := shape
  have entered : ∀ ref ∈ ([] : List Ref), heap.Reaches a ref := fun _ mem => nomatch mem
  rw [← bijection.root]
  exact fold_renamed nameless bijection entered (reaches_self heap a)

/-- **Values of one shape have equal contents**, unless there is NaN in them, which differs from
itself. -/
theorem bisimilar_of_renaming (h : heap.Renaming heap a b name)
    (numbers : ∀ ref value, heap.Reaches a ref → (heap.get ref).payload = .float value →
      value.isNaN = false) : heap.Bisimilar a b := by
  refine ⟨fun x y => heap.Reaches a x ∧ name x = y, ?_, reaches_self heap a, h.root⟩
  rintro x y ⟨reaches, rfl⟩
  have renames := h.payload x reaches
  right
  generalize held : (heap.get x).payload = p at renames
  generalize (heap.get (name x)).payload = q at renames
  cases renames with
  | none => exact .none
  | bool value => exact .bool value
  | int value => exact .int value
  | float value =>
    have number := numbers x value reaches held
    exact .float (by rw [Double.ieeeEq_self, number, Bool.not_false])
  | string bytes => exact .string bytes
  | array items =>
    refine .array ?_
    rw [items, List.forall₂_map_right_iff, List.forall₂_same]
    intro item mem
    exact ⟨.tail reaches (by rwa [items_of_array held]), rfl⟩

end Heap

end BoxedValues
