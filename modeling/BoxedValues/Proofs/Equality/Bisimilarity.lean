import BoxedValues.Proofs.Heap.Graph
import Mathlib.Data.List.Forall2

/-!
# Equal contents, cyclic or not

Two values have equal contents if some relation (a bisimulation) holds between them and never
relates two boxes that differ in what they hold themselves; arrays hold their elements in order,
which are related again. No run of a program and no order of visits appears in this definition.

* `Heap.Bisimilar` is the largest bisimulation, and an equivalence relation
  (`equivalence_bisimilar`);
* `Heap.AlikeTo depth` looks only as far down as `depth`; two values are bisimilar exactly if no
  depth tells them apart (`bisimilar_iff_alikeTo`).
-/

set_option autoImplicit false

namespace BoxedValues

/-! ## Equality as numbers -/

namespace Double

variable {x y z : Double}

theorem ieeeEq_iff : x.ieeeEq y = true ↔
    x.isNaN = false ∧ y.isNaN = false ∧ (x.bits = y.bits ∨ x.isZero = true ∧ y.isZero = true) := by
  simp [ieeeEq, and_assoc]

theorem ieeeEq_self (x : Double) : x.ieeeEq x = !x.isNaN := by
  simp [ieeeEq]

theorem ieeeEq_symm (h : x.ieeeEq y = true) : y.ieeeEq x = true := by
  obtain ⟨hx, hy, same⟩ := ieeeEq_iff.1 h
  exact ieeeEq_iff.2 ⟨hy, hx, same.imp Eq.symm And.symm⟩

theorem isZero_of_bits_eq (h : x.bits = y.bits) : x.isZero = y.isZero := by
  simp only [isZero, h]

theorem ieeeEq_trans (h : x.ieeeEq y = true) (h' : y.ieeeEq z = true) : x.ieeeEq z = true := by
  obtain ⟨hx, _, same⟩ := ieeeEq_iff.1 h
  obtain ⟨_, hz, same'⟩ := ieeeEq_iff.1 h'
  refine ieeeEq_iff.2 ⟨hx, hz, ?_⟩
  rcases same with bits | ⟨zx, zy⟩
  · rcases same' with bits' | ⟨zy, zz⟩
    · exact .inl (bits.trans bits')
    · exact .inr ⟨(isZero_of_bits_eq bits).trans zy, zz⟩
  · rcases same' with bits' | ⟨_, zz⟩
    · exact .inr ⟨zx, (isZero_of_bits_eq bits').symm.trans zy⟩
    · exact .inr ⟨zx, zz⟩

/-- Doubles that are equal as numbers are hashed as one double. -/
theorem unsignedZero_eq_of_ieeeEq (h : x.ieeeEq y = true) : x.unsignedZero = y.unsignedZero := by
  obtain ⟨_, _, bits | ⟨zx, zy⟩⟩ := ieeeEq_iff.1 h
  · have same : x = y := by
      cases x
      cases y
      exact congrArg Double.mk bits
    rw [same]
  · simp only [unsignedZero, zx, zy, if_true]

end Double

/-! ## Bisimulations -/

/-- What two boxes hold is equal, if the elements that `R` relates are. Records never are. -/
inductive Payload.Similar (R : Ref → Ref → Prop) : Payload → Payload → Prop where
  | none : Similar R .none .none
  | bool (value : Bool) : Similar R (.bool value) (.bool value)
  | int (value : Int64) : Similar R (.int value) (.int value)
  | float {x y : Double} : x.ieeeEq y = true → Similar R (.float x) (.float y)
  | string (bytes : Bytes) : Similar R (.string bytes) (.string bytes)
  | array {buffer other : Buffer} : List.Forall₂ R buffer.live other.live →
      Similar R (.array buffer) (.array other)

namespace Payload.Similar

variable {R S : Ref → Ref → Prop} {p q r : Payload}

theorem mono (h : Similar R p q) (implies : ∀ {a b}, R a b → S a b) : Similar S p q := by
  cases h with
  | none => exact .none
  | bool value => exact .bool value
  | int value => exact .int value
  | float same => exact .float same
  | string bytes => exact .string bytes
  | array items => exact .array (items.imp fun _ _ => implies)

theorem symm (h : Similar R p q) : Similar (fun a b => R b a) q p := by
  cases h with
  | none => exact .none
  | bool value => exact .bool value
  | int value => exact .int value
  | float same => exact .float (Double.ieeeEq_symm same)
  | string bytes => exact .string bytes
  | array items => exact .array items.flip

theorem comp_elements {items others further : List Ref} (h : List.Forall₂ R items others)
    (h' : List.Forall₂ S others further) :
    List.Forall₂ (fun a c => ∃ b, R a b ∧ S b c) items further := by
  induction h generalizing further with
  | nil =>
    cases h'
    exact .nil
  | cons first _ ih =>
    cases h' with
    | cons second rest => exact .cons ⟨_, first, second⟩ (ih rest)

theorem comp (h : Similar R p q) (h' : Similar S q r) :
    Similar (fun a c => ∃ b, R a b ∧ S b c) p r := by
  cases h with
  | none => cases h'; exact .none
  | bool value => cases h'; exact .bool value
  | int value => cases h'; exact .int value
  | float same => cases h' with | float same' => exact .float (Double.ieeeEq_trans same same')
  | string bytes => cases h'; exact .string bytes
  | array items =>
    cases h' with
    | array items' => exact .array (comp_elements items items')

end Payload.Similar

namespace Heap

variable {heap : Heap} {a b c : Ref}

/-- Related values are the same box, or hold equal contents as far as `R` goes. -/
def IsBisimulation (heap : Heap) (R : Ref → Ref → Prop) : Prop :=
  ∀ a b, R a b → a = b ∨ Payload.Similar R (heap.get a).payload (heap.get b).payload

/-- Some bisimulation relates the two values. -/
def Bisimilar (heap : Heap) (a b : Ref) : Prop := ∃ R, heap.IsBisimulation R ∧ R a b

/-- Bisimilarity is itself a bisimulation. -/
theorem isBisimulation_bisimilar (heap : Heap) : heap.IsBisimulation heap.Bisimilar := by
  rintro a b ⟨R, bisimulation, related⟩
  apply (bisimulation a b related).imp_right
  intro similar
  exact similar.mono fun h => ⟨R, bisimulation, h⟩

theorem Bisimilar.refl (heap : Heap) (a : Ref) : heap.Bisimilar a a :=
  ⟨Eq, fun _ _ same => .inl same, rfl⟩

theorem Bisimilar.symm (h : heap.Bisimilar a b) : heap.Bisimilar b a := by
  refine ⟨fun x y => heap.Bisimilar y x, ?_, h⟩
  intro x y related
  rcases heap.isBisimulation_bisimilar y x related with same | similar
  · exact .inl same.symm
  · exact .inr similar.symm

theorem Bisimilar.trans (h : heap.Bisimilar a b) (h' : heap.Bisimilar b c) :
    heap.Bisimilar a c := by
  refine ⟨fun x z => ∃ y, heap.Bisimilar x y ∧ heap.Bisimilar y z, ?_, b, h, h'⟩
  rintro x z ⟨y, first, second⟩
  -- A pair of one box is not compared by its contents, so the other pair decides alone.
  rcases heap.isBisimulation_bisimilar x y first with rfl | similar
  · apply (heap.isBisimulation_bisimilar x z second).imp_right
    intro similar
    exact similar.mono fun related => ⟨_, .refl heap _, related⟩
  · rcases heap.isBisimulation_bisimilar y z second with rfl | similar'
    · exact .inr (similar.mono fun related => ⟨_, related, .refl heap _⟩)
    · exact .inr (similar.comp similar')

/-- **Having equal contents is an equivalence relation.** -/
theorem equivalence_bisimilar (heap : Heap) : Equivalence heap.Bisimilar :=
  ⟨.refl heap, .symm, .trans⟩

/-! ## Approximations -/

/-- The contents are equal as far down as the given depth. -/
def AlikeTo (heap : Heap) : Nat → Ref → Ref → Prop
  | 0, _, _ => True
  | depth + 1, a, b =>
    a = b ∨ Payload.Similar (heap.AlikeTo depth) (heap.get a).payload (heap.get b).payload

theorem AlikeTo.of_succ {depth : Nat} {a b : Ref} (h : heap.AlikeTo (depth + 1) a b) :
    heap.AlikeTo depth a b := by
  induction depth generalizing a b with
  | zero => trivial
  | succ depth ih => exact h.imp_right fun similar => similar.mono ih

theorem Bisimilar.alikeTo {a b : Ref} (h : heap.Bisimilar a b) (depth : Nat) :
    heap.AlikeTo depth a b := by
  induction depth generalizing a b with
  | zero => trivial
  | succ depth ih =>
    exact (heap.isBisimulation_bisimilar a b h).imp_right fun similar => similar.mono ih

/-- Being alike to every depth is a bisimulation: an array has finitely many elements, and each is
found at the same place at every depth. -/
theorem isBisimulation_alikeTo (heap : Heap) :
    heap.IsBisimulation fun a b => ∀ depth, heap.AlikeTo depth a b := by
  intro a b alike
  by_cases same : a = b
  · exact .inl same
  have similar : ∀ depth,
      Payload.Similar (heap.AlikeTo depth) (heap.get a).payload (heap.get b).payload :=
    fun depth => (alike (depth + 1)).resolve_left same
  right
  generalize (heap.get a).payload = p at similar
  generalize (heap.get b).payload = q at similar
  cases similar 0 with
  | none => exact .none
  | bool value => exact .bool value
  | int value => exact .int value
  | float same => exact .float same
  | string bytes => exact .string bytes
  | array items =>
    refine .array (List.forall₂_iff_get.2 ⟨items.length_eq, ?_⟩)
    intro i hi hi' depth
    cases similar depth with
    | array items' => exact (List.forall₂_iff_get.1 items').2 i hi hi'

theorem bisimilar_iff_alikeTo {a b : Ref} :
    heap.Bisimilar a b ↔ ∀ depth, heap.AlikeTo depth a b :=
  ⟨fun h => h.alikeTo, fun h => ⟨_, heap.isBisimulation_alikeTo, h⟩⟩

end Heap

end BoxedValues
