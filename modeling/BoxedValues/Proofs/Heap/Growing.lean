import BoxedValues.Heap.Buffer
import Mathlib.Data.List.Induction
import Mathlib.Order.Bounds.Basic
import Mathlib.Tactic.Ring

/-!
# Buffers that grow

What becomes of the slots of a buffer when elements are pushed and items are stored into slots, in
any order. A single write lands in one slot; a push into a full buffer adds slots on the way.

* `Doubled.succ`: the law of the capacity for one more element;
* `Buffer.lands`: the step, one write;
* `Buffer.growth`: **the run**, by induction on the writes: length, capacity and all slots of a
  buffer after any of them, the spare slots included.
-/

set_option autoImplicit false

namespace BoxedValues

/-- What is written to a buffer. -/
inductive Write where
  /-- An element behind the last one. -/
  | push (item : Ref)
  /-- An item in a slot, live or spare. -/
  | set (index : Nat) (item : Ref)

namespace Write

def isPush : Write → Bool
  | push _ => true
  | set _ _ => false

/-- What is written. -/
def item : Write → Ref
  | push item => item
  | set _ item => item

/-- The slot that is written, in a buffer with so many elements. -/
def place (length : Nat) : Write → Nat
  | push _ => length
  | set index _ => index

/-- The number of pushes. -/
def pushes (writes : List Write) : Nat := writes.countP isPush

/-- One of the writes stores into the slot. -/
def Sets (writes : List Write) (index : Nat) : Prop := ∃ item, set index item ∈ writes

variable {writes earlier later : List Write} {write last : Write} {index length : Nat}

theorem pushes_append (writes later : List Write) :
    pushes (writes ++ later) = pushes writes + pushes later := List.countP_append

theorem pushes_cons_push (item : Ref) (writes : List Write) :
    pushes (push item :: writes) = pushes writes + 1 := List.countP_cons_of_pos rfl

theorem pushes_cons_set (index : Nat) (item : Ref) (writes : List Write) :
    pushes (set index item :: writes) = pushes writes := List.countP_cons_of_neg Bool.false_ne_true

theorem sets_append : Sets (writes ++ later) index ↔ Sets writes index ∨ Sets later index := by
  simp only [Sets, List.mem_append, exists_or]

/-- Of writes with one more at the end, each is that one or one of the others. -/
theorem eq_of_concat (h : writes ++ [last] = earlier ++ write :: later) :
    later = [] ∧ write = last ∧ earlier = writes ∨
      ∃ rest, later = rest ++ [last] ∧ writes = earlier ++ write :: rest := by
  rcases later.eq_nil_or_concat with rfl | ⟨rest, end', rfl⟩
  · obtain ⟨rfl, same⟩ := List.append_inj' h rfl
    cases same
    exact .inl ⟨rfl, rfl, rfl⟩
  · rw [List.concat_eq_append, ← List.cons_append, ← List.append_assoc] at h
    obtain ⟨rfl, same⟩ := List.append_inj' h rfl
    cases same
    exact .inr ⟨rest, List.concat_eq_append, rfl⟩

/-- A write misses the slots that it does not store into, among the elements that were there and
beyond those that are there afterwards. -/
theorem place_ne (unset : ¬Sets [write] index)
    (bounds : index < length ∨ length + pushes [write] ≤ index) : index ≠ write.place length := by
  cases write with
  | push item =>
    have one : pushes [push item] = 1 := rfl
    simp only [place]
    omega
  | set place item =>
    rintro rfl
    exact unset ⟨item, List.mem_singleton_self _⟩

end Write

open Write

/-! ## The law of the capacity -/

/-- The capacity that `count` elements call for: the same as before while they fit. Else it is
doubled, from one at least, as few times as they need. -/
structure Doubled (capacity count grown : Nat) : Prop where
  kept : count ≤ capacity → grown = capacity
  doubled : capacity < count → ∃ times,
    IsLeast {times | count ≤ max capacity 1 * 2 ^ times} times ∧
      grown = max capacity 1 * 2 ^ times

theorem Doubled.of_le {capacity count : Nat} (fits : count ≤ capacity) :
    Doubled capacity count capacity :=
  ⟨fun _ => rfl, fun more => absurd fits (Nat.not_le.2 more)⟩

/-- One more element, for which a full buffer doubles its capacity. -/
theorem Doubled.succ {capacity count grown : Nat} (h : Doubled capacity count grown)
    (room : count ≤ grown) :
    Doubled capacity (count + 1) (if count = grown then max (2 * count) 1 else grown) := by
  by_cases fits : count ≤ capacity
  · obtain rfl := h.kept fits
    by_cases full : count = grown
    · subst full
      rw [if_pos rfl]
      refine ⟨fun more => absurd more (Nat.not_succ_le_self count), fun _ => ?_⟩
      cases count with
      | zero =>
        refine ⟨0, ⟨?_, fun _ _ => Nat.zero_le _⟩, rfl⟩
        rw [Set.mem_ofPred_eq]
        omega
      | succ count =>
        refine ⟨1, ⟨?_, fun times enough => ?_⟩, ?_⟩
        · rw [Set.mem_ofPred_eq]
          omega
        · rw [Nat.one_le_iff_ne_zero]
          rintro rfl
          rw [Set.mem_ofPred_eq] at enough
          omega
        · omega
    · rw [if_neg full]
      exact .of_le (by omega)
  · obtain ⟨times, ⟨enough, least⟩, rfl⟩ := h.doubled (Nat.not_le.1 fits)
    refine ⟨fun more => absurd more (by omega), fun _ => ?_⟩
    have positive : 0 < max capacity 1 := by omega
    by_cases full : count = max capacity 1 * 2 ^ times
    · have twice : max capacity 1 * 2 ^ (times + 1) = 2 * count := by
        rw [full]
        ring
      rw [if_pos full]
      refine ⟨times + 1, ⟨?_, fun other more => ?_⟩, ?_⟩
      · rw [Set.mem_ofPred_eq, twice]
        omega
      · -- Fewer doublings give no more slots than there were.
        rw [Set.mem_ofPred_eq, full] at more
        exact (Nat.pow_lt_pow_iff_right (by decide)).1 (Nat.lt_of_mul_lt_mul_left more)
      · omega
    · rw [if_neg full]
      refine ⟨times, ⟨?_, fun other more => least ?_⟩, rfl⟩
      · rw [Set.mem_ofPred_eq]
        omega
      · rw [Set.mem_ofPred_eq] at more ⊢
        omega

namespace Buffer

variable {filler item : Ref} {start now after : Buffer} {index : Nat} {write : Write}
  {writes : List Write}

/-! ## One write -/

/-- The buffer after a write, if it has the slot. -/
def write? (filler : Ref) (buffer : Buffer) : Write → Option Buffer
  | .push item => some (buffer.push filler item)
  | .set index item => buffer.set? index item

/-- The write has landed in its slot: the others are as they were, and those that are new are
filled. -/
structure Lands (filler : Ref) (before : Buffer) (write : Write) (after : Buffer) : Prop where
  length : after.length = before.length + pushes [write]
  room : after.length ≤ after.capacity
  capacity : ∀ first, Doubled first before.length before.capacity →
    Doubled first after.length after.capacity
  landed : after.slots[write.place before.length]? = some write.item
  others : ∀ index < before.capacity, index ≠ write.place before.length →
    after.slots[index]? = before.slots[index]?
  filled : ∀ index < after.capacity, before.capacity ≤ index →
    index ≠ write.place before.length → after.slots[index]? = some filler

theorem lands_push (filler item : Ref) (room : now.length ≤ now.capacity) :
    Lands filler now (.push item) (now.push filler item) := by
  have inside := length_lt_size_grown filler room
  have slots (index : Nat) : (now.push filler item).slots[index]? =
      if now.length = index then some item else (now.grown filler)[index]? := by
    rw [push, Array.getElem?_setIfInBounds, if_pos inside]
  constructor
  case length => rfl
  case room => exact length_le_capacity_push filler item room
  case capacity =>
    intro first doubled
    rw [capacity_push]
    exact doubled.succ room
  case landed => exact (slots _).trans (if_pos rfl)
  case others =>
    intro index old apart
    have apart : now.length ≠ index := Ne.symm apart
    rw [slots, if_neg apart, grown]
    split
    · exact Array.getElem?_append_left old
    · rfl
  case filled =>
    intro index new beyond apart
    rw [capacity, push, Array.size_setIfInBounds] at new
    have apart : now.length ≠ index := Ne.symm apart
    rw [slots, if_neg apart]
    rw [grown] at new ⊢
    split at new
    · rename_i full
      rw [Array.size_append, Array.size_replicate] at new
      rw [if_pos full, Array.getElem?_append_right beyond, Array.getElem?_replicate, if_pos]
      have size : now.capacity = now.slots.size := rfl
      omega
    · exact absurd new (Nat.not_lt.2 beyond)

theorem lands_set (filler : Ref) (room : now.length ≤ now.capacity)
    (stored : now.set? index item = some after) : Lands filler now (.set index item) after := by
  have same := capacity_set? stored
  have length := length_set? stored
  have slots (other : Nat) : after.slots[other]? =
      if index = other then some item else now.slots[other]? := by
    rw [set?] at stored
    split at stored
    · rename_i inside
      cases stored
      exact Array.getElem?_set inside
    · cases stored
  constructor
  case length => exact length
  case room => rwa [length, same]
  case capacity =>
    intro first doubled
    rwa [length, same]
  case landed => exact (slots _).trans (if_pos rfl)
  case others => exact fun other _ apart => (slots other).trans (if_neg (Ne.symm apart))
  case filled => exact fun other new beyond => absurd new (Nat.not_lt.2 (same ▸ beyond))

/-- **A write lands in its slot.** -/
theorem lands (room : now.length ≤ now.capacity) (written : now.write? filler write = some after) :
    Lands filler now write after := by
  cases write with
  | push item =>
    cases written
    exact lands_push filler item room
  | set index item => exact lands_set filler room written

/-! ## Any number of writes -/

/-- The buffer after writes, if it has each slot when it is written. -/
def writeAll? (filler : Ref) (buffer : Buffer) (writes : List Write) : Option Buffer :=
  writes.foldlM (write? filler) buffer

theorem writeAll?_concat (filler : Ref) (start : Buffer) (writes : List Write) (write : Write) :
    start.writeAll? filler (writes ++ [write]) =
      (start.writeAll? filler writes).bind fun now => now.write? filler write := by
  simp only [writeAll?, List.foldlM_append, List.foldlM_cons, List.foldlM_nil, bind_pure,
    Option.bind_eq_bind]

/-- The law of growth: what a buffer has become by the writes. -/
structure Growth (filler : Ref) (start : Buffer) (writes : List Write) (now : Buffer) : Prop where
  length : now.length = start.length + pushes writes
  room : now.length ≤ now.capacity
  capacity : Doubled start.capacity now.length now.capacity
  /-- An element keeps its position unless an item is stored there, and so does a spare slot that no
  push has reached. -/
  kept : ∀ index < start.capacity, index < start.length ∨ now.length ≤ index →
    ¬Sets writes index → now.slots[index]? = start.slots[index]?
  /-- What is pushed follows the elements, in the order of the pushes. -/
  pushed : ∀ earlier item later, writes = earlier ++ .push item :: later →
    ¬Sets later (start.length + pushes earlier) →
      now.slots[start.length + pushes earlier]? = some item
  /-- What is stored stays, if no later push and no later store is to the slot. -/
  stored : ∀ earlier index item later, writes = earlier ++ .set index item :: later →
    ¬Sets later index → index < start.length + pushes earlier ∨ now.length ≤ index →
      now.slots[index]? = some item
  /-- New slots that no push has reached and no store was to hold the filler. -/
  filled : ∀ index < now.capacity, start.capacity ≤ index → now.length ≤ index →
    ¬Sets writes index → now.slots[index]? = some filler

theorem Growth.nil (filler : Ref) (room : start.length ≤ start.capacity) :
    Growth filler start [] start where
  length := rfl
  room := room
  capacity := .of_le room
  kept _ _ _ _ := rfl
  pushed earlier item later h := by simp at h
  stored earlier index item later h := by simp at h
  filled index new beyond := absurd new (Nat.not_lt.2 beyond)

/-- One more write. -/
theorem Growth.concat (growth : Growth filler start writes now)
    (lands : Lands filler now write after) : Growth filler start (writes ++ [write]) after := by
  have length : after.length = now.length + pushes [write] := lands.length
  have before := growth.length
  -- What a slot holds that the write misses, if it holds something.
  have missed {index : Nat} {held : Ref} (unset : ¬Sets [write] index)
      (bounds : index < now.length ∨ after.length ≤ index)
      (there : now.slots[index]? = some held) : after.slots[index]? = some held := by
    have inside : index < now.capacity := (Array.getElem?_eq_some_iff.1 there).1
    rw [lands.others index inside (place_ne unset (length ▸ bounds)), there]
  constructor
  case length => rw [pushes_append, length, before, Nat.add_assoc]
  case room => exact lands.room
  case capacity => exact lands.capacity _ growth.capacity
  case kept =>
    intro index old bounds unset
    rw [sets_append, not_or] at unset
    have held := growth.kept index old (by omega) unset.1
    have there : start.slots[index]? = some start.slots[index] := Array.getElem?_eq_getElem old
    rw [there] at held ⊢
    exact missed unset.2 (by omega) held
  case pushed =>
    intro earlier item later split unset
    rcases eq_of_concat split with ⟨rfl, rfl, rfl⟩ | ⟨rest, rfl, rfl⟩
    · have landed := lands.landed
      rwa [before] at landed
    · rw [sets_append, not_or] at unset
      have counted : pushes (earlier ++ .push item :: rest) = pushes earlier + (pushes rest + 1) := by
        rw [pushes_append, pushes_cons_push]
      exact missed unset.2 (by omega) (growth.pushed earlier item rest rfl unset.1)
  case stored =>
    intro earlier index item later split unset bounds
    rcases eq_of_concat split with ⟨rfl, rfl, rfl⟩ | ⟨rest, rfl, rfl⟩
    · exact lands.landed
    · rw [sets_append, not_or] at unset
      have counted : pushes (earlier ++ .set index item :: rest) = pushes earlier + pushes rest := by
        rw [pushes_append, pushes_cons_set]
      exact missed unset.2 (by omega)
        (growth.stored earlier index item rest rfl unset.1 (by omega))
  case filled =>
    intro index new beyond spare unset
    rw [sets_append, not_or] at unset
    by_cases old : index < now.capacity
    · exact missed unset.2 (.inr spare) (growth.filled index old beyond (by omega) unset.1)
    · exact lands.filled index new (Nat.not_lt.1 old) (place_ne unset.2 (.inr (length ▸ spare)))

/-- **A buffer grows by the law**, whatever is pushed and stored in whatever order. -/
theorem growth (room : start.length ≤ start.capacity)
    (written : start.writeAll? filler writes = some now) : Growth filler start writes now := by
  induction writes using List.reverseRecOn generalizing now with
  | nil =>
    cases written
    exact .nil filler room
  | append_singleton writes write ih =>
    rw [writeAll?_concat] at written
    obtain ⟨middle, first, last⟩ := Option.bind_eq_some_iff.1 written
    exact (ih first).concat (lands (ih first).room last)

end Buffer

end BoxedValues
