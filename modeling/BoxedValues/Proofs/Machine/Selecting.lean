import BoxedValues.Proofs.Machine.Singletons
import BoxedValues.Proofs.Position.Intervals

/-!
# Elements and parts

Selecting from a string or an array of any length that is a machine word, at all positions that are
machine words, follows one meaning: a position counts from the end if it is negative, an element is
the one at that place, and a part consists of the places between its endpoints.

* `Exec.MakesNew.andThen`: what two actions make, one after the other, is both there in the end;
* `SelectsOctets` and `SelectsElements` list what there is to say about strings and about arrays;
* `selects`: **both hold for every such value**, in every state.
-/

set_option autoImplicit false

namespace BoxedValues

open Position

/-- A box that is made stays while another one is made. -/
theorem Exec.MakesNew.andThen {first second : Exec Ref} {before : State} {box other : Box}
    (made : first.MakesNew before box)
    (next : ∀ middle, before.heap.Extends middle.heap → second.MakesNew middle other) :
    ∃ one two middle after, first before = .ok one middle ∧ second middle = .ok two after ∧
      after.heap.Holds one box ∧ after.heap.Holds two other := by
  obtain ⟨one, middle, ran, held, _, grown⟩ := made
  obtain ⟨two, after, ran', held', _, grown'⟩ := next middle grown
  exact ⟨one, two, middle, after, ran, ran', grown' one box held, held'⟩

theorem Heap.Extends.payload {before after : Heap} {ref : Ref} (h : before.Extends after)
    {payload : Payload} (held : (before.get ref).payload = payload) (there : payload ≠ .none) :
    (after.get ref).payload = payload := by
  rw [(h ref _ (holds_get (lt_size_of_payload (held ▸ there)))).get, held]

namespace Machine

/-- No sum of machine words wraps around when positions are resolved against the length. -/
structure ResolvesExactly (length : Nat) : Prop where
  index : ∀ position, exactIndex? position length = some (index? position length)
  range : ∀ start stop, exactRange? start stop length = some (range? start stop length)

/-- Selecting from a string of these octets. -/
structure SelectsOctets (machine : Machine) (now : State) (value : Ref) (bytes : Bytes) : Prop where
  /-- The octet at a place, as a new string. -/
  element : ∀ (index : Int64) (place : Nat) (inside : place < bytes.length),
    meant index bytes.length = place →
      (machine.element value index).MakesNew now ⟨machine.ids.string, .string [bytes[place]]⟩
  missing : ∀ index, meant index bytes.length < 0 ∨ bytes.length ≤ meant index bytes.length →
    machine.element value index now = .ok machine.noneValue now
  /-- The octets between two places, as a new string. -/
  part : ∀ start stop, (machine.part value start stop).MakesNew now ⟨machine.ids.string,
    .string (between bytes (meant start bytes.length) (meant stop bytes.length))⟩
  /-- What stands before a place and what stands from it on. -/
  halves : ∀ place, ∃ front back middle after before behind,
    machine.part value 0 place now = .ok front middle ∧
      machine.part value place Int64.maxValue middle = .ok back after ∧
      after.heap.Holds front ⟨machine.ids.string, .string before⟩ ∧
      after.heap.Holds back ⟨machine.ids.string, .string behind⟩ ∧ before ++ behind = bytes
  exact : ResolvesExactly bytes.length

/-- Selecting from an array of these elements. -/
structure SelectsElements (machine : Machine) (now : State) (value : Ref) (items : List Ref) :
    Prop where
  /-- The element at a place, itself. -/
  element : ∀ (index : Int64) (place : Nat) (inside : place < items.length),
    meant index items.length = place →
      machine.element value index now = .ok items[place] now
  missing : ∀ index, meant index items.length < 0 ∨ items.length ≤ meant index items.length →
    machine.element value index now = .ok machine.noneValue now
  /-- The elements between two places, in a new array without spare slots, or with a single one if
  there are none. -/
  part : ∀ start stop, ∃ buffer : Buffer,
    (machine.part value start stop).MakesNew now ⟨machine.ids.array, .array buffer⟩ ∧
      buffer.live = between items (meant start items.length) (meant stop items.length) ∧
      buffer.length = buffer.live.length ∧
      (buffer.length ≠ 0 → buffer.capacity = buffer.length) ∧
      (buffer.length = 0 → buffer.capacity = 1)
  /-- What stands before a place and what stands from it on. -/
  halves : ∀ place, ∃ front back middle after, ∃ before behind : Buffer,
    machine.part value 0 place now = .ok front middle ∧
      machine.part value place Int64.maxValue middle = .ok back after ∧
      after.heap.Holds front ⟨machine.ids.array, .array before⟩ ∧
      after.heap.Holds back ⟨machine.ids.array, .array behind⟩ ∧ before.live ++ behind.live = items
  exact : ResolvesExactly items.length

variable {machine : Machine} {now : State} {value : Ref} {length : Nat}

theorem resolvesExactly (fits : Fits length) : ResolvesExactly length where
  index := exactIndex?_eq fits
  range := exactRange?_eq fits

/-- An index that names no place of the value selects `None`. -/
theorem element_missing {count : Nat} (counted : (now.heap.get value).payload.count? = some count)
    (fits : Fits count) {index : Int64}
    (outside : meant index count < 0 ∨ (count : Int) ≤ meant index count) :
    machine.element value index now = .ok machine.noneValue now := by
  refine element_beyond counted ?_
  rw [index?_eq fits, if_neg (by omega)]

theorem get?_meant {α : Type} {items : List α} (fits : Fits items.length) {index : Int64}
    {place : Nat} (inside : place < items.length) (same : meant index items.length = place) :
    get? items index = some items[place] := by
  rw [get?_eq fits, same, if_pos (Int.natCast_nonneg place), Int.toNat_natCast,
    List.getElem?_eq_getElem inside]

theorem selectsOctets {bytes : Bytes} (held : (now.heap.get value).payload = .string bytes)
    (fits : Fits bytes.length) : machine.SelectsOctets now value bytes := by
  have makes := fun state => machine.makes 0 state
  constructor
  case element =>
    intro index place inside same
    exact (makes now).element value bytes index _ held (get?_meant fits inside same)
  case missing => exact fun index => element_missing (by rw [held]; rfl) fits
  case part =>
    intro start stop
    rw [← slice_eq_between fits]
    exact (makes now).stringPart value bytes start stop held
  case halves =>
    intro place
    obtain ⟨front, back, middle, after, ran, ran', here, there⟩ :=
      ((makes now).stringPart value bytes 0 place held).andThen fun middle grown =>
        (makes middle).stringPart value bytes place Int64.maxValue (grown.payload held nofun)
    exact ⟨front, back, middle, after, _, _, ran, ran', here, there, slice_append_slice fits place⟩
  case exact => exact resolvesExactly fits

theorem selectsElements {buffer : Buffer} (held : (now.heap.get value).payload = .array buffer)
    (fits : Fits buffer.live.length) : machine.SelectsElements now value buffer.live := by
  have makes := fun state => machine.makes 0 state
  constructor
  case element =>
    intro index place inside same
    unfold Machine.element
    rw [Exec.bind_ok (Exec.payload_ok value now), held]
    simp only [get?_meant fits inside same, Option.getD_some]
    rfl
  case missing => exact fun index => element_missing (by rw [held]; rfl) fits
  case part =>
    intro start stop
    refine ⟨_, (makes now).arrayPart value buffer start stop held, ?_⟩
    have capacity := Buffer.capacity_ofItems machine.noneValue (slice buffer.live start stop)
    rw [Buffer.live_ofItems, capacity, ← slice_eq_between fits]
    refine ⟨rfl, rfl, fun filled => ?_, fun empty => ?_⟩
    · exact Nat.max_eq_right (Nat.one_le_iff_ne_zero.2 filled)
    · exact congrArg (max 1) empty
  case halves =>
    intro place
    obtain ⟨front, back, middle, after, ran, ran', here, there⟩ :=
      ((makes now).arrayPart value buffer 0 place held).andThen fun middle grown =>
        (makes middle).arrayPart value buffer place Int64.maxValue (grown.payload held nofun)
    refine ⟨front, back, middle, after, _, _, ran, ran', here, there, ?_⟩
    rw [Buffer.live_ofItems, Buffer.live_ofItems]
    exact slice_append_slice fits place
  case exact => exact resolvesExactly fits

/-- **Elements and parts are what plain intervals say**, at all positions that are machine words. -/
theorem selects (machine : Machine) (now : State) (value : Ref) :
    (∀ bytes, (now.heap.get value).payload = .string bytes → Fits bytes.length →
      machine.SelectsOctets now value bytes) ∧
    (∀ buffer, (now.heap.get value).payload = .array buffer → Fits buffer.live.length →
      machine.SelectsElements now value buffer.live) :=
  ⟨fun _ => selectsOctets, fun _ => selectsElements⟩

/-- On the machine with builtin types only: the string `abc`, and an array of it and `None`. -/
def selectableState : State :=
  { bareState with heap := ⟨bareState.heap.boxes ++ #[⟨bare.ids.string, .string [97, 98, 99]⟩,
    ⟨bare.ids.array, .array ⟨#[⟨6⟩, ⟨0⟩, ⟨0⟩], 2⟩⟩]⟩ }

/-- Counted from the end, beyond both ends, and up to the greatest position. -/
theorem selects_abc :
    (bare.element ⟨6⟩ (-3)).MakesNew selectableState ⟨bare.ids.string, .string [97]⟩ ∧
    bare.element ⟨6⟩ Int64.minValue selectableState = .ok bare.noneValue selectableState ∧
    (bare.part ⟨6⟩ (-2) Int64.maxValue).MakesNew selectableState
      ⟨bare.ids.string, .string [98, 99]⟩ ∧
    bare.element ⟨7⟩ (-2) selectableState = .ok ⟨6⟩ selectableState ∧
    ∃ buffer : Buffer,
      (bare.part ⟨7⟩ Int64.maxValue Int64.minValue).MakesNew selectableState
        ⟨bare.ids.array, .array buffer⟩ ∧ buffer.live = [] ∧ buffer.capacity = 1 := by
  have octets := (selects bare selectableState ⟨6⟩).1 [97, 98, 99] rfl (by decide)
  have elements := (selects bare selectableState ⟨7⟩).2 ⟨#[⟨6⟩, ⟨0⟩, ⟨0⟩], 2⟩ rfl (by decide)
  obtain ⟨buffer, made, nothing, counted, _, single⟩ := elements.part Int64.maxValue Int64.minValue
  have none : buffer.live = [] := nothing
  refine ⟨octets.element (-3) 0 (by decide) rfl, octets.missing _ (.inl (by decide)),
    octets.part (-2) Int64.maxValue, elements.element (-2) 0 (by decide) rfl,
    buffer, made, none, single ?_⟩
  rw [counted, none]
  rfl

end Machine

end BoxedValues
