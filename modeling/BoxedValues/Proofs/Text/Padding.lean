import BoxedValues.Proofs.Machine.Sending
import BoxedValues.Proofs.Position.Intervals
import Mathlib.Order.Bounds.Basic

/-!
# Padding a string

A string is padded with as many whole copies of another as fit in front of it within a width. How
many these are is said here without a difference or a quotient: they are the greatest number whose
copies, together with the string, are not wider (`fitting`).

* `StringMethod.padLeft?_eq_none_iff` and `padLeft?_eq_some`: when there is nothing to add, and what
  is added otherwise;
* `StringMethod.exactPadLeft?_eq`: the lengths on the way are all machine words, none is below zero,
  and none is divided by zero;
* `Machine.pads_to_width`: **the method gives the string back or a new one that is padded as far as
  whole copies go**, at all widths that are machine words.
-/

set_option autoImplicit false

namespace BoxedValues

namespace StringMethod

variable {bytes padding : Bytes} {width : Int64} {copies : Nat}

/-! ## What fits -/

/-- There is no room, or nothing to fill it with. -/
def NothingToAdd (bytes : Bytes) (width : Int64) (padding : Bytes) : Prop :=
  width.toInt ≤ 0 ∨ width.toInt ≤ bytes.length ∨ padding = []

/-- The numbers of copies that are no wider together with the octets than the width. -/
def fitting (bytes : Bytes) (width : Int64) (padding : Bytes) : Set Nat :=
  {copies | (copies * padding.length + bytes.length : Int) ≤ width.toInt}

/-- The octets behind so many copies of the padding. -/
def behindCopies (copies : Nat) (padding bytes : Bytes) : Bytes :=
  (List.replicate copies padding).flatten ++ bytes

theorem length_behindCopies (copies : Nat) (padding bytes : Bytes) :
    (behindCopies copies padding bytes).length = copies * padding.length + bytes.length := by
  simp [behindCopies]

theorem nothingToAdd_iff : NothingToAdd bytes width padding ↔
    width ≤ 0 ∨ width.toNatClampNeg ≤ bytes.length ∨ padding.isEmpty := by
  have natural : width.toNatClampNeg = width.toInt.toNat := rfl
  rw [NothingToAdd, Int64.le_iff_toInt_le, Int64.toInt_zero, natural, List.isEmpty_iff]
  have either : width.toInt.toNat ≤ bytes.length ↔ width.toInt ≤ bytes.length := by omega
  rw [either]

/-- Where there is room, it is the difference of two lengths, and the padding has octets. -/
theorem room_of_not_nothingToAdd (room : ¬NothingToAdd bytes width padding) :
    ∃ limit : Nat, width.toInt = limit ∧ width.toNatClampNeg = limit ∧ bytes.length < limit ∧
      0 < padding.length := by
  have natural : width.toNatClampNeg = width.toInt.toNat := rfl
  obtain ⟨positive, wider, filled⟩ := by simpa only [NothingToAdd, not_or] using room
  exact ⟨width.toInt.toNat, by omega, natural, by omega, List.length_pos_of_ne_nil filled⟩

/-- The quotient of the room by the length of the padding counts the copies that fit. -/
theorem isGreatest_copies (room : ¬NothingToAdd bytes width padding) :
    IsGreatest (fitting bytes width padding)
      ((width.toNatClampNeg - bytes.length) / padding.length) := by
  obtain ⟨limit, same, natural, wider, filled⟩ := room_of_not_nothingToAdd room
  have fits_iff (copies : Nat) : copies ∈ fitting bytes width padding ↔
      copies ≤ (limit - bytes.length) / padding.length := by
    rw [Nat.le_div_iff_mul_le filled, fitting, Set.mem_ofPred_eq, same]
    omega
  rw [natural]
  exact ⟨(fits_iff _).2 le_rfl, fun copies fits => (fits_iff copies).1 fits⟩

/-! ## What is added -/

theorem padLeft?_eq_none_iff :
    padLeft? bytes width padding = none ↔ NothingToAdd bytes width padding := by
  rw [padLeft?, nothingToAdd_iff]
  split
  · rename_i nothing
    exact iff_of_true rfl nothing
  · rename_i room
    exact iff_of_false (Option.some_ne_none _) room

theorem padLeft?_eq_some (room : ¬NothingToAdd bytes width padding)
    (most : IsGreatest (fitting bytes width padding) copies) :
    padLeft? bytes width padding = some (behindCopies copies padding bytes) := by
  rw [padLeft?, if_neg (mt nothingToAdd_iff.2 room), most.unique (isGreatest_copies room)]
  rfl

/-- The result is no wider than the width, and one more copy would be. -/
theorem length_of_isGreatest (most : IsGreatest (fitting bytes width padding) copies) :
    ((behindCopies copies padding bytes).length : Int) ≤ width.toInt ∧
      width.toInt < (behindCopies copies padding bytes).length + padding.length := by
  have fits : (copies * padding.length + bytes.length : Int) ≤ width.toInt := most.1
  have another : ¬((copies + 1 : Nat) * padding.length + bytes.length : Int) ≤ width.toInt :=
    fun more => absurd (most.2 more) (Nat.not_succ_le_self copies)
  rw [Int.natCast_succ, Int.add_mul, Int.one_mul] at another
  rw [length_behindCopies, Int.natCast_add, Int.natCast_mul]
  omega

/-! ## Lengths that do not wrap around

The same steps, with a result only if every length on the way is a machine word, no smaller one is
left when a greater one is taken off, and none is divided by zero. -/

/-- A length that is a machine word. -/
def length? (length : Nat) : Option Nat := if Position.Fits length then some length else none

/-- What is left of a length when another is taken off. -/
def difference? (length other : Nat) : Option Nat :=
  if other ≤ length then some (length - other) else none

/-- How many times another length goes into a length. -/
def quotient? (length other : Nat) : Option Nat := if other = 0 then none else some (length / other)

/-- `StringMethod.padLeft?` with exact arithmetic, the guards in order. -/
def exactPadLeft? (bytes : Bytes) (width : Int64) (padding : Bytes) : Option (Option Bytes) := do
  if width ≤ 0 then return none
  let limit ← Position.natural? width
  if limit ≤ bytes.length then return none
  if padding.isEmpty then return none
  let room ← difference? limit bytes.length
  let copies ← quotient? room padding.length
  let added ← length? (copies * padding.length)
  let _ ← length? (added + bytes.length)
  return some (behindCopies copies padding bytes)

theorem natural?_of_positive (positive : ¬width ≤ 0) :
    Position.natural? width = some width.toNatClampNeg := by
  rw [Int64.le_iff_toInt_le, Int64.toInt_zero] at positive
  exact Position.natural?_of_le (by omega)

/-- Where there is nothing to add, one of the guards says so before anything is reckoned. -/
theorem exactPadLeft?_of_nothing (nothing : NothingToAdd bytes width padding) :
    exactPadLeft? bytes width padding = some none := by
  rw [exactPadLeft?]
  by_cases positive : width ≤ 0
  · rw [if_pos positive]
    rfl
  · rw [if_neg positive, natural?_of_positive positive]
    rcases nothingToAdd_iff.1 nothing with low | narrow | empty
    · exact absurd low positive
    · simp [narrow]
    · simp [empty]

/-- Elsewhere no length is greater than the width. -/
theorem exactPadLeft?_of_room (room : ¬NothingToAdd bytes width padding) :
    exactPadLeft? bytes width padding = some (some (behindCopies
      ((width.toNatClampNeg - bytes.length) / padding.length) padding bytes)) := by
  obtain ⟨limit, same, natural, wider, filled⟩ := room_of_not_nothingToAdd room
  have positive : ¬width ≤ 0 := fun low => room (nothingToAdd_iff.2 (.inl low))
  have wide := (length_of_isGreatest (isGreatest_copies room)).1
  have greatest : width.toInt ≤ 9223372036854775807 := width.toInt_le
  rw [length_behindCopies, natural] at wide
  rw [exactPadLeft?, if_neg positive, natural?_of_positive positive, natural]
  have difference : difference? limit bytes.length = some (limit - bytes.length) := if_pos wider.le
  generalize limit - bytes.length = left at difference wide ⊢
  have quotient : quotient? left padding.length = some (left / padding.length) :=
    if_neg filled.ne'
  generalize left / padding.length = copies at quotient wide ⊢
  have sum : copies * padding.length + bytes.length ≤ 9223372036854775807 := by omega
  have added : length? (copies * padding.length) = some (copies * padding.length) :=
    if_pos ((Nat.le_add_right _ _).trans sum)
  have whole : length? (copies * padding.length + bytes.length) = some _ := if_pos sum
  simp only [Option.bind_eq_bind, Option.bind_some, if_neg (Nat.not_le.2 wider), List.isEmpty_iff,
    List.ne_nil_of_length_pos filled, difference, quotient, added, whole]
  rfl

/-- **Padding is exact.** The guards come before the operations that need them. -/
theorem exactPadLeft?_eq (bytes : Bytes) (width : Int64) (padding : Bytes) :
    exactPadLeft? bytes width padding = some (padLeft? bytes width padding) := by
  by_cases nothing : NothingToAdd bytes width padding
  · rw [padLeft?_eq_none_iff.2 nothing, exactPadLeft?_of_nothing nothing]
  · rw [padLeft?_eq_some nothing (isGreatest_copies nothing), exactPadLeft?_of_room nothing]

end StringMethod

namespace Machine

open StringMethod

variable {machine : Machine} {state : State} {value width padding : Ref} {bytes filling : Bytes}
  {number : Int64}

/-- A call that pads the string to the width. -/
structure PadsToWidth (machine : Machine) (state : State) (value width padding : Ref)
    (bytes : Bytes) (number : Int64) (filling : Bytes) : Prop where
  /-- Where there is nothing to add, the answer is the receiver itself, and nothing else happens. -/
  kept : NothingToAdd bytes number filling →
    machine.send StringMethod.padLeft.slot [value, width, padding] state = .ok value state
  /-- Elsewhere it is a new string, with the greatest number of copies that fits. -/
  padded : ¬NothingToAdd bytes number filling → ∃ copies,
    IsGreatest {copies : Nat | (copies * filling.length + bytes.length : Int) ≤ number.toInt} copies ∧
    (machine.send StringMethod.padLeft.slot [value, width, padding]).MakesNew state
      ⟨machine.ids.string, .string (behindCopies copies filling bytes)⟩ ∧
    ((behindCopies copies filling bytes).length : Int) ≤ number.toInt ∧
    number.toInt < (behindCopies copies filling bytes).length + filling.length
  exact : exactPadLeft? bytes number filling = some (padLeft? bytes number filling)

/-- A call of the method, as what there is to add. -/
theorem send_padLeft (complete : machine.Complete)
    (held : state.heap.get value = ⟨machine.ids.string, .string bytes⟩)
    (limit : (state.heap.get width).payload = .int number)
    (fill : (state.heap.get padding).payload = .string filling) :
    machine.send StringMethod.padLeft.slot [value, width, padding] state =
      (match padLeft? bytes number filling with
        | some padded => machine.newString padded
        | none => pure value : Exec Ref) state := by
  rw [send_string complete (by rw [held]) rfl]
  refine (Exec.bind_ok (Arguments.receiver_ok (by rw [held]; rfl))).trans ?_
  refine (Exec.bind_ok (Arguments.required_ok rfl (by rw [limit]; rfl))).trans ?_
  refine (Exec.bind_ok (Arguments.required_ok rfl (by rw [fill]; rfl))).trans ?_
  cases padLeft? bytes number filling <;> rfl

/-- **A string is padded as far as whole copies go, and no further.** Whatever octets the string and
the padding hold, and whatever machine word the width is. -/
theorem pads_to_width (complete : machine.Complete)
    (held : state.heap.get value = ⟨machine.ids.string, .string bytes⟩)
    (limit : (state.heap.get width).payload = .int number)
    (fill : (state.heap.get padding).payload = .string filling) :
    machine.PadsToWidth state value width padding bytes number filling := by
  have sent := send_padLeft complete held limit fill
  constructor
  case kept =>
    intro nothing
    rw [sent, padLeft?_eq_none_iff.2 nothing]
    rfl
  case padded =>
    intro room
    have most := isGreatest_copies room
    refine ⟨_, most, ?_, length_of_isGreatest most⟩
    rw [padLeft?_eq_some room most] at sent
    exact (Exec.makesNew_alloc _ state).of_eq sent
  case exact => exact exactPadLeft?_eq bytes number filling

/-- On the machine with builtin types only: `ab`, the padding `xyz`, an empty string, the width 10,
the least width and the greatest. -/
def paddableState : State :=
  let string (text : String) : Box := ⟨bare.ids.string, .string (Utf8.ofString text)⟩
  let int (number : Int64) : Box := ⟨bare.ids.int, .int number⟩
  { bareState with heap := ⟨bareState.heap.boxes ++ #[string "ab", string "xyz", string "",
    int 10, int Int64.minValue, int Int64.maxValue]⟩ }

/-- Two copies of three octets fit before two octets in ten, none is added at the least width, and
none of an empty padding at the greatest. -/
theorem pads_to_width_whole_copies :
    (bare.send StringMethod.padLeft.slot [⟨6⟩, ⟨9⟩, ⟨7⟩]).MakesNew paddableState
      ⟨bare.ids.string, .string (Utf8.ofString "xyzxyzab")⟩ ∧
    bare.send StringMethod.padLeft.slot [⟨6⟩, ⟨10⟩, ⟨7⟩] paddableState = .ok ⟨6⟩ paddableState ∧
    bare.send StringMethod.padLeft.slot [⟨6⟩, ⟨11⟩, ⟨8⟩] paddableState = .ok ⟨6⟩ paddableState := by
  have complete : bare.Complete := (live_of_assembled assembled_bare).complete
  have ten : bare.PadsToWidth paddableState ⟨6⟩ ⟨9⟩ ⟨7⟩ _ 10 (Utf8.ofString "xyz") :=
    pads_to_width complete rfl rfl rfl
  have least : bare.PadsToWidth paddableState ⟨6⟩ ⟨10⟩ ⟨7⟩ _ Int64.minValue _ :=
    pads_to_width complete rfl rfl rfl
  have empty : bare.PadsToWidth paddableState ⟨6⟩ ⟨11⟩ ⟨8⟩ _ _ [] :=
    pads_to_width complete rfl rfl rfl
  refine ⟨?_, least.kept (.inl (by decide)), empty.kept (.inr (.inr rfl))⟩
  obtain ⟨copies, most, made, _⟩ := ten.padded (by
    rintro (low | narrow | empty)
    · exact absurd low (by decide)
    · exact absurd narrow (by decide)
    · cases empty)
  have two : IsGreatest {copies : Nat | (copies * 3 + 2 : Int) ≤ 10} 2 := by
    refine ⟨by decide, fun other fits => ?_⟩
    rw [Set.mem_ofPred_eq] at fits
    omega
  rw [most.unique two] at made
  exact made

end Machine

end BoxedValues
