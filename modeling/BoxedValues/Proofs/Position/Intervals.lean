import BoxedValues.Proofs.Literal.Building

/-!
# Positions as plain intervals

What an index and the two endpoints of a slice mean is said here with integers alone: a negative
position counts from the end (`Position.meant`), an index finds the element there, and a slice takes
the elements whose places lie between its endpoints (`Position.between`). In a container whose
length is a machine word, the arithmetic on machine words says the same.

* `get?_eq` and `slice_eq_between`: the element and the part, for all indices and endpoints;
* `slice_append_slice`: what stands before any position and what stands from it on is everything;
* `exactIndex?_eq` and `exactRange?_eq`: no sum of machine words on the way wraps around.
-/

set_option autoImplicit false

namespace BoxedValues.Position

variable {α : Type} {items : List α} {length : Nat}

/-! ## What is meant -/

/-- The place that a position names, wherever it is: a negative one counts from the end. -/
def meant (position : Int64) (length : Nat) : Int :=
  if position < 0 then position.toInt + length else position.toInt

/-- The items, in order, whose places are at least `low` and less than `high`. -/
def between (items : List α) (low high : Int) : List α :=
  (items.zipIdx.filter fun entry => low ≤ entry.2 ∧ entry.2 < high).map Prod.fst

/-- The same if the first item stands at `place`. -/
theorem filter_zipIdx (items : List α) (place : Nat) (low high : Int) :
    ((items.zipIdx place).filter fun entry => low ≤ entry.2 ∧ entry.2 < high).map Prod.fst =
      (items.drop (low - place).toNat).take (high - max low place).toNat := by
  induction items generalizing place with
  | nil => simp
  | cons item items ih =>
    rw [List.zipIdx_cons, List.filter_cons]
    by_cases before : (place : Int) < low
    · have later : (low - place).toNat = (low - (place + 1 : Nat)).toNat + 1 := by omega
      have same : max low place = max low (place + 1 : Nat) := by omega
      rw [if_neg (by simp; omega), ih, later, List.drop_succ_cons, same]
    · have first : (low - place).toNat = 0 := by omega
      have next : (low - (place + 1 : Nat)).toNat = 0 := by omega
      by_cases behind : high ≤ place
      · have nothing : (high - max low place).toNat = 0 := by omega
        have nothing' : (high - max low (place + 1 : Nat)).toNat = 0 := by omega
        rw [if_neg (by simp; omega), ih, nothing, nothing', List.take_zero, List.take_zero]
      · have more : (high - max low place).toNat = (high - max low (place + 1 : Nat)).toNat + 1 := by
          omega
        rw [if_pos (by simp; omega), List.map_cons, ih, first, next, more]
        rfl

theorem between_eq (items : List α) (low high : Int) :
    between items low high = (items.drop low.toNat).take (high.toNat - low.toNat) := by
  have from_zero := filter_zipIdx items 0 low high
  rw [between, from_zero]
  congr 1
  · omega
  · simp

/-! ## Machine words -/

/-- A length that is a machine word. -/
def Fits (length : Nat) : Prop := length ≤ Int64.maxValue.toNatClampNeg

instance (length : Nat) : Decidable (Fits length) := inferInstanceAs (Decidable (_ ≤ _))

theorem Fits.toInt (fits : Fits length) : (Int64.ofNat length).toInt = length :=
  Int64.toInt_ofNat_of_lt (Nat.lt_of_le_of_lt fits (by decide))

/-- A negative position and a length have a sum. -/
theorem Fits.toInt_add (fits : Fits length) {position : Int64} (negative : position < 0) :
    (position + Int64.ofNat length).toInt = position.toInt + length := by
  have bounded : length ≤ 9223372036854775807 := fits
  have below := Int64.lt_iff_toInt_lt.1 negative
  have least := position.le_toInt
  rw [Int64.toInt_add, fits.toInt]
  apply Int.bmod_eq_of_le <;> simp at below ⊢ <;> omega

/-- A position counted from the start by adding the length is the place that is meant. -/
theorem Fits.toInt_counted (fits : Fits length) (position : Int64) :
    (if position < 0 then position + Int64.ofNat length else position).toInt =
      meant position length := by
  rw [meant]
  by_cases negative : position < 0
  · rw [if_pos negative, if_pos negative, fits.toInt_add negative]
  · rw [if_neg negative, if_neg negative]

/-! ## The element at an index -/

theorem Fits.toInt_neg (fits : Fits length) : (-Int64.ofNat length).toInt = -length := by
  have bounded : length ≤ 9223372036854775807 := fits
  rw [Int64.toInt_neg, fits.toInt]
  apply Int.bmod_eq_of_le <;> simp <;> omega

theorem Fits.outside_iff (fits : Fits length) (index : Int64) :
    index < -Int64.ofNat length ∨ Int64.ofNat length ≤ index ↔
      ¬ (0 ≤ meant index length ∧ meant index length < length) := by
  simp only [Int64.lt_iff_toInt_lt, Int64.le_iff_toInt_le, fits.toInt_neg, fits.toInt, meant,
    Int64.toInt_zero]
  split <;> omega

/-- An index is resolved to the place that it names if there is such a place. -/
theorem index?_eq (fits : Fits length) (index : Int64) :
    index? index length = if 0 ≤ meant index length ∧ meant index length < length then
      some (meant index length).toNat else none := by
  have place : (if index < 0 then index + Int64.ofNat length else index).toNatClampNeg =
      (meant index length).toNat := congrArg Int.toNat (fits.toInt_counted index)
  simp only [index?, fits.outside_iff, place, ite_not]

/-- **An index finds the element at the place that it names**, and nothing if that is no place. -/
theorem get?_eq (fits : Fits items.length) (index : Int64) :
    get? items index = if 0 ≤ meant index items.length then
      items[(meant index items.length).toNat]? else none := by
  rw [get?, index?_eq fits]
  by_cases nonneg : 0 ≤ meant index items.length
  · rw [if_pos nonneg]
    by_cases inside : meant index items.length < items.length
    · rw [if_pos ⟨nonneg, inside⟩]
      rfl
    · rw [if_neg fun both => inside both.2, List.getElem?_eq_none (by omega)]
      rfl
  · rw [if_neg nonneg, if_neg fun both => nonneg both.1]
    rfl

/-! ## The part between two endpoints -/

theorem toInt_rangeStart (fits : Fits length) (start : Int64) :
    (rangeStart start (Int64.ofNat length)).toInt =
      if length = 0 then 0 else max 0 (meant start length) := by
  have empty_iff : Int64.ofNat length = 0 ↔ length = 0 := by
    rw [← Int64.toInt_inj, fits.toInt, Int64.toInt_zero]
    omega
  have sum : start < 0 → _ := fits.toInt_add
  simp only [rangeStart, empty_iff, apply_ite Int64.toInt, Int64.lt_iff_toInt_lt, Int64.toInt_zero,
    meant] at sum ⊢
  split
  · rfl
  · by_cases negative : start.toInt < 0
    · rw [if_pos negative, if_pos negative, sum negative]
      split <;> omega
    · rw [if_neg negative, if_neg negative]
      omega

theorem toInt_rangeStop (fits : Fits length) (start stop : Int64) :
    (rangeStop start stop (Int64.ofNat length)).toInt =
      min (length : Int) (max start.toInt (meant stop length)) := by
  have counted := fits.toInt_counted stop
  unfold rangeStop
  generalize (if stop < 0 then stop + Int64.ofNat length else stop) = stop' at counted ⊢
  simp only [apply_ite Int64.toInt, Int64.lt_iff_toInt_lt, Int64.le_iff_toInt_le, fits.toInt,
    counted]
  split <;> split <;> omega

/-- A slice is taken from the start to the end, as far as both lie inside the container. -/
theorem range?_eq (fits : Fits length) (start stop : Int64) :
    range? start stop length =
      if max 0 (meant start length) < min (length : Int) (meant stop length) then
        some ((meant start length).toNat, (min (length : Int) (meant stop length)).toNat)
      else none := by
  have first := toInt_rangeStart fits start
  have last := toInt_rangeStop fits (rangeStart start (Int64.ofNat length)) stop
  rw [range?]
  generalize rangeStart start (Int64.ofNat length) = first' at first last ⊢
  generalize rangeStop first' stop (Int64.ofNat length) = last' at last ⊢
  simp only [Int64.le_iff_toInt_le]
  split at first
  · rw [if_pos (by omega), if_neg (by omega)]
  · by_cases order : last'.toInt ≤ first'.toInt
    · rw [if_pos order, if_neg (by omega)]
    · rw [if_neg order, if_pos (by omega)]
      refine congrArg some (Prod.ext ?_ ?_)
      · show first'.toInt.toNat = _
        omega
      · show last'.toInt.toNat = _
        omega

/-- **A slice takes the items between its endpoints**, wherever they lie and in either order. -/
theorem slice_eq_between (fits : Fits items.length) (start stop : Int64) :
    slice items start stop =
      between items (meant start items.length) (meant stop items.length) := by
  rw [slice, range?_eq fits, between_eq]
  by_cases order : max 0 (meant start items.length) < min (items.length : Int) (meant stop items.length)
  · rw [if_pos order]
    refine List.take_eq_take_iff.2 ?_
    rw [List.length_drop]
    omega
  · rw [if_neg order]
    refine (List.take_eq_nil_iff.2 ?_).symm
    rw [List.drop_eq_nil_iff]
    omega

/-- What stands before a position and what stands from it on are the whole container. -/
theorem slice_append_slice (fits : Fits items.length) (place : Int64) :
    slice items 0 place ++ slice items place Int64.maxValue = items := by
  have bounded : items.length ≤ 9223372036854775807 := fits
  have greatest : meant Int64.maxValue items.length = 9223372036854775807 := rfl
  have least : meant 0 items.length = 0 := rfl
  rw [slice_eq_between fits, slice_eq_between fits, between_eq, between_eq, greatest, least]
  generalize (meant place items.length).toNat = middle
  have rest : (items.drop middle).length ≤ (9223372036854775807 : Int).toNat - middle := by
    rw [List.length_drop]
    omega
  rw [List.take_of_length_le rest]
  exact List.take_append_drop middle items

/-! ## Sums that do not wrap around

The same steps, with a result only if every number on the way is a machine word and every position
is a natural number. -/

/-- A number that is a machine word. -/
def word? (value : Int) : Option Int64 :=
  if Int64.minValue.toInt ≤ value ∧ value ≤ Int64.maxValue.toInt then some (.ofInt value) else none

/-- A position that is a natural number. -/
def natural? (position : Int64) : Option Nat :=
  if 0 ≤ position then some position.toNatClampNeg else none

/-- A position counted from the start, by adding the length to a negative one. -/
def counted? (position length : Int64) : Option Int64 :=
  if position < 0 then word? (position.toInt + length.toInt) else some position

/-- `Position.index?` with exact arithmetic. -/
def exactIndex? (index : Int64) (length : Nat) : Option (Option Nat) := do
  let length ← word? length
  let least ← word? (-length.toInt)
  if index < least ∨ length ≤ index then return none
  let place ← counted? index length
  return some (← natural? place)

/-- `Position.range?` with exact arithmetic. -/
def exactRange? (start stop : Int64) (length : Nat) : Option (Option (Nat × Nat)) := do
  let length ← word? length
  let counted ← counted? start length
  let start := if start < 0 ∧ counted < 0 then 0 else counted
  let start := if length = 0 then 0 else start
  let stop ← counted? stop length
  let stop := if stop < start then start else stop
  let stop := if length ≤ stop then length else stop
  if stop ≤ start then return none
  return some (← natural? start, ← natural? stop)

theorem word?_toInt {word : Int64} {value : Int} (h : word.toInt = value) :
    word? value = some word := by
  subst h
  rw [word?, if_pos ⟨word.minValue_le_toInt, word.toInt_le⟩, Int64.ofInt_toInt]

theorem natural?_of_le {position : Int64} (nonneg : 0 ≤ position.toInt) :
    natural? position = some position.toNatClampNeg :=
  if_pos (by rwa [Int64.le_iff_toInt_le, Int64.toInt_zero])

theorem Fits.counted?_eq (fits : Fits length) (position : Int64) :
    counted? position (Int64.ofNat length) =
      some (if position < 0 then position + Int64.ofNat length else position) := by
  rw [counted?]
  by_cases negative : position < 0
  · rw [if_pos negative, if_pos negative]
    exact word?_toInt (by rw [fits.toInt_add negative, fits.toInt])
  · rw [if_neg negative, if_neg negative]

/-- **Resolving an index is exact.** -/
theorem exactIndex?_eq (fits : Fits length) (index : Int64) :
    exactIndex? index length = some (index? index length) := by
  have least : word? (-(Int64.ofNat length).toInt) = some (-Int64.ofNat length) :=
    word?_toInt (by rw [fits.toInt_neg, fits.toInt])
  simp only [exactIndex?, word?_toInt fits.toInt, fits.counted?_eq, least, Option.bind_eq_bind,
    Option.bind_some, index?]
  by_cases outside : index < -Int64.ofNat length ∨ Int64.ofNat length ≤ index
  · rw [if_pos outside, if_pos outside]
    rfl
  · have inside := not_not.1 (mt (fits.outside_iff index).2 outside)
    have nonneg := natural?_of_le (fits.toInt_counted index ▸ inside.1)
    rw [if_neg outside, if_neg outside, nonneg]
    rfl

/-- The start of a slice, with its two rules in either order. -/
theorem rangeStart_eq (start length : Int64) :
    rangeStart start length = if length = 0 then 0 else
      if start < 0 ∧ (if start < 0 then start + length else start) < 0 then 0 else
        if start < 0 then start + length else start := by
  by_cases negative : start < 0 <;> simp [rangeStart, negative]

theorem rangeStop_eq (start stop length : Int64) :
    (if length ≤ (if (if stop < 0 then stop + length else stop) < start then start
        else if stop < 0 then stop + length else stop) then length
      else if (if stop < 0 then stop + length else stop) < start then start
        else if stop < 0 then stop + length else stop) = rangeStop start stop length := rfl

/-- **Resolving the endpoints of a slice is exact.** -/
theorem exactRange?_eq (fits : Fits length) (start stop : Int64) :
    exactRange? start stop length = some (range? start stop length) := by
  have first := toInt_rangeStart fits start
  have last := toInt_rangeStop fits (rangeStart start (Int64.ofNat length)) stop
  simp only [exactRange?, word?_toInt fits.toInt, fits.counted?_eq, Option.bind_eq_bind,
    Option.bind_some, ← rangeStart_eq, rangeStop_eq, range?]
  generalize rangeStart start (Int64.ofNat length) = first' at first last ⊢
  generalize rangeStop first' stop (Int64.ofNat length) = last' at last ⊢
  by_cases order : last' ≤ first'
  · rw [if_pos order, if_pos order]
    rfl
  · have nonneg : 0 ≤ first'.toInt := by
      split at first <;> omega
    have nonneg' : 0 ≤ last'.toInt := by omega
    rw [if_neg order, if_neg order, natural?_of_le nonneg, natural?_of_le nonneg']
    rfl

end BoxedValues.Position
