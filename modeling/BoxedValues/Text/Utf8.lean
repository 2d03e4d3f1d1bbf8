/-!
# Octets and characters

The text of a `Str`: `as_bytes` is what it holds and `as_str_lossy` is how it reads
(`Utf8.decodeLossy`). A run-time string is a sequence of octets without further structure. UTF-8
relates it to text:

* `Utf8.encode` gives the octets of a text;
* `Utf8.units` cuts octets into characters and maximal ill-formed parts;
* `Utf8.decode?` reads well-formed octets and refuses all others;
* `Utf8.decodeLossy` reads any octets, with U+FFFD for every ill-formed part.

Both readers give back a text that was written (`decode?_encode`, `decodeLossy_encode`).
-/

set_option autoImplicit false

namespace BoxedValues

/-- The contents of a run-time string. -/
abbrev Bytes := List UInt8

namespace Utf8

/-! ## Writing -/

/-- The one to four octets of a character. -/
def encodeChar (c : Char) : Bytes :=
  let code := c.toNat
  if code < 0x80 then [.ofNat code]
  else if code < 0x800 then
    [.ofNat (0xC0 + code / 64), .ofNat (0x80 + code % 64)]
  else if code < 0x10000 then
    [.ofNat (0xE0 + code / 4096), .ofNat (0x80 + code / 64 % 64), .ofNat (0x80 + code % 64)]
  else
    [.ofNat (0xF0 + code / 262144), .ofNat (0x80 + code / 4096 % 64),
      .ofNat (0x80 + code / 64 % 64), .ofNat (0x80 + code % 64)]

/-- The octets of a text. -/
def encode (text : List Char) : Bytes := text.flatMap encodeChar

@[simp] theorem encode_nil : encode [] = [] := rfl

theorem encode_cons (c : Char) (text : List Char) :
    encode (c :: text) = encodeChar c ++ encode text := rfl

theorem encode_append (first second : List Char) :
    encode (first ++ second) = encode first ++ encode second := by
  simp [encode]

/-- The octets of a string of the program itself, such as a keyword. -/
def ofString (text : String) : Bytes := encode text.toList

/-! ## Reading -/

/-- A character of which some octets have been read. -/
structure Pending where
  /-- How many octets follow the next one. -/
  more : Nat
  /-- The next octet lies between `low` and `high`. -/
  low : Nat
  high : Nat
  /-- The number that the octets so far spell. -/
  value : Nat

/-- What an octet outside every character does: it is a unit of its own, a character or an
ill-formed part, or it opens a longer character. The bounds on the second octet shut out
overlong spellings, surrogates and code points beyond U+10FFFF. -/
def opening (octet : Nat) : Option Char ⊕ Pending :=
  if octet < 0x80 then .inl (some (Char.ofNat octet))
  else if octet < 0xC2 then .inl none
  else if octet < 0xE0 then .inr ⟨0, 0x80, 0xBF, octet - 0xC0⟩
  else if octet < 0xF0 then
    .inr ⟨1, if octet = 0xE0 then 0xA0 else 0x80, if octet = 0xED then 0x9F else 0xBF,
      octet - 0xE0⟩
  else if octet < 0xF5 then
    .inr ⟨2, if octet = 0xF0 then 0x90 else 0x80, if octet = 0xF4 then 0x8F else 0xBF,
      octet - 0xF0⟩
  else .inl none

/-- The number that `pending` spells together with a further octet. -/
def Pending.extend (pending : Pending) (octet : Nat) : Nat := pending.value * 64 + (octet - 0x80)

/-- The units of the octets that follow an unfinished character, if there is one. An octet that
cannot continue the character ends it as an ill-formed part and is then read afresh. -/
def unitsFrom : Option Pending → Bytes → List (Option Char)
  | none, [] => []
  | some _, [] => [none]
  | none, byte :: rest =>
    match opening byte.toNat with
    | .inl unit => unit :: unitsFrom none rest
    | .inr pending => unitsFrom (some pending) rest
  | some pending, byte :: rest =>
    if pending.low ≤ byte.toNat ∧ byte.toNat ≤ pending.high then
      match pending.more with
      | 0 => some (Char.ofNat (pending.extend byte.toNat)) :: unitsFrom none rest
      | more + 1 => unitsFrom (some ⟨more, 0x80, 0xBF, pending.extend byte.toNat⟩) rest
    else
      none ::
        match opening byte.toNat with
        | .inl unit => unit :: unitsFrom none rest
        | .inr pending => unitsFrom (some pending) rest

/-- The characters of `bytes` in order, with `none` for every maximal ill-formed part. -/
def units (bytes : Bytes) : List (Option Char) := unitsFrom none bytes

/-- The text of well-formed octets. -/
def decode? (bytes : Bytes) : Option (List Char) := (units bytes).mapM id

/-- The text of any octets, with U+FFFD for every ill-formed part. -/
def decodeLossy (bytes : Bytes) : List Char := (units bytes).map (·.getD '\uFFFD')

/-! ## Reading what was written -/

theorem toNat_octet {n : Nat} (h : n < 256) : (UInt8.ofNat n).toNat = n := by
  rw [UInt8.toNat_ofNat']
  exact Nat.mod_eq_of_lt h

/-- An octet that opens a longer character leaves it unfinished. -/
theorem unitsFrom_open {n : Nat} {pending : Pending} (rest : Bytes) (small : n < 256)
    (h : opening n = .inr pending) :
    unitsFrom none (UInt8.ofNat n :: rest) = unitsFrom (some pending) rest := by
  rw [unitsFrom, toNat_octet small, h]

/-- An octet in range brings an unfinished character forward. -/
theorem unitsFrom_more {more low high value n : Nat} (rest : Bytes) (small : n < 256)
    (range : low ≤ n ∧ n ≤ high) :
    unitsFrom (some ⟨more + 1, low, high, value⟩) (UInt8.ofNat n :: rest) =
      unitsFrom (some ⟨more, 0x80, 0xBF, value * 64 + (n - 0x80)⟩) rest := by
  rw [unitsFrom, toNat_octet small, if_pos range]
  rfl

/-- The last octet of a character completes it. -/
theorem unitsFrom_last {low high value n : Nat} (rest : Bytes) (small : n < 256)
    (range : low ≤ n ∧ n ≤ high) :
    unitsFrom (some ⟨0, low, high, value⟩) (UInt8.ofNat n :: rest) =
      some (Char.ofNat (value * 64 + (n - 0x80))) :: unitsFrom none rest := by
  rw [unitsFrom, toNat_octet small, if_pos range]
  rfl

theorem unitsFrom_two {n : Nat} (rest : Bytes) (low : 0x80 ≤ n) (high : n < 0x800) :
    unitsFrom none (UInt8.ofNat (0xC0 + n / 64) :: UInt8.ofNat (0x80 + n % 64) :: rest) =
      some (Char.ofNat n) :: unitsFrom none rest := by
  have h : opening (0xC0 + n / 64) = .inr ⟨0, 0x80, 0xBF, n / 64⟩ := by
    simp only [opening]
    rw [if_neg (by omega), if_neg (by omega), if_pos (by omega), Nat.add_sub_cancel_left]
  rw [unitsFrom_open _ (by omega) h, unitsFrom_last _ (by omega) (by omega)]
  rw [show n / 64 * 64 + (0x80 + n % 64 - 0x80) = n by omega]

theorem unitsFrom_three {n : Nat} (rest : Bytes) (low : 0x800 ≤ n)
    (valid : n < 0xD800 ∨ 0xDFFF < n ∧ n < 0x10000) :
    unitsFrom none (UInt8.ofNat (0xE0 + n / 4096) :: UInt8.ofNat (0x80 + n / 64 % 64) ::
        UInt8.ofNat (0x80 + n % 64) :: rest) =
      some (Char.ofNat n) :: unitsFrom none rest := by
  have h : opening (0xE0 + n / 4096) = .inr ⟨1, if 0xE0 + n / 4096 = 0xE0 then 0xA0 else 0x80,
      if 0xE0 + n / 4096 = 0xED then 0x9F else 0xBF, n / 4096⟩ := by
    simp only [opening]
    rw [if_neg (by omega), if_neg (by omega), if_neg (by omega), if_pos (by omega),
      Nat.add_sub_cancel_left]
  rw [unitsFrom_open _ (by omega) h,
    unitsFrom_more _ (by omega) (by constructor <;> split <;> omega),
    unitsFrom_last _ (by omega) (by omega)]
  rw [show (n / 4096 * 64 + (0x80 + n / 64 % 64 - 0x80)) * 64 + (0x80 + n % 64 - 0x80) = n
    by omega]

theorem unitsFrom_four {n : Nat} (rest : Bytes) (low : 0x10000 ≤ n) (high : n < 0x110000) :
    unitsFrom none (UInt8.ofNat (0xF0 + n / 262144) :: UInt8.ofNat (0x80 + n / 4096 % 64) ::
        UInt8.ofNat (0x80 + n / 64 % 64) :: UInt8.ofNat (0x80 + n % 64) :: rest) =
      some (Char.ofNat n) :: unitsFrom none rest := by
  have h : opening (0xF0 + n / 262144) = .inr ⟨2,
      if 0xF0 + n / 262144 = 0xF0 then 0x90 else 0x80,
      if 0xF0 + n / 262144 = 0xF4 then 0x8F else 0xBF, n / 262144⟩ := by
    simp only [opening]
    rw [if_neg (by omega), if_neg (by omega), if_neg (by omega), if_neg (by omega),
      if_pos (by omega), Nat.add_sub_cancel_left]
  rw [unitsFrom_open _ (by omega) h,
    unitsFrom_more _ (by omega) (by constructor <;> split <;> omega),
    unitsFrom_more _ (by omega) (by omega), unitsFrom_last _ (by omega) (by omega)]
  rw [show ((n / 262144 * 64 + (0x80 + n / 4096 % 64 - 0x80)) * 64 +
    (0x80 + n / 64 % 64 - 0x80)) * 64 + (0x80 + n % 64 - 0x80) = n by omega]

theorem unitsFrom_encodeChar (c : Char) (rest : Bytes) :
    unitsFrom none (encodeChar c ++ rest) = some c :: unitsFrom none rest := by
  have valid : c.toNat < 0xD800 ∨ 0xDFFF < c.toNat ∧ c.toNat < 0x110000 := c.valid
  have same : Char.ofNat c.toNat = c := Char.ofNat_toNat c
  simp only [encodeChar]
  split
  · next h =>
    rw [List.cons_append, List.nil_append, unitsFrom, toNat_octet (by omega), opening, if_pos h,
      same]
  · split
    · next h _ =>
      rw [List.cons_append, List.cons_append, List.nil_append, unitsFrom_two _ (by omega)
        (by omega), same]
    · split
      · next h _ =>
        rw [List.cons_append, List.cons_append, List.cons_append, List.nil_append,
          unitsFrom_three _ (by omega) (by omega), same]
      · next h =>
        rw [List.cons_append, List.cons_append, List.cons_append, List.cons_append,
          List.nil_append, unitsFrom_four _ (by omega) (by omega), same]

/-- The octets of a text are cut into its characters. -/
theorem units_encode (text : List Char) : units (encode text) = text.map some := by
  induction text with
  | nil => rfl
  | cons c text ih =>
    rw [encode_cons, units, unitsFrom_encodeChar, List.map_cons]
    exact congrArg _ ih

/-- The octets of a text spell the text, also for a reader who takes anything. -/
theorem decodeLossy_encode (text : List Char) : decodeLossy (encode text) = text := by
  rw [decodeLossy, units_encode, List.map_map]
  exact List.map_id' text

end Utf8

end BoxedValues
