import BoxedValues.Text.Utf8

/-!
# Hashes of octets

Reference model of `hash_bytes` and of the hasher that it feeds, the 64-bit FNV-1a hash. The hash of
a value starts with a tag of its kind, which keeps values such as `0`, `false` and `None` apart.
-/

set_option autoImplicit false

namespace BoxedValues.Hash

/-- The hash of no octets. -/
def offset : UInt64 := 0xcbf29ce484222325

/-- The factor of each step. -/
def prime : UInt64 := 0x100000001b3

/-- The hash after one more octet. -/
def step (hash : UInt64) (byte : UInt8) : UInt64 := (hash ^^^ byte.toUInt64) * prime

/-- The hash of a sequence of octets. -/
def ofBytes (bytes : Bytes) : UInt64 := bytes.foldl step offset

/-- The eight octets of a word, least significant first. -/
def wordBytes (word : UInt64) : Bytes :=
  (List.range 8).map fun i => .ofNat (word.toNat >>> (8 * i))

/-- What a hashed value is, as the first octet of its hash. -/
inductive Tag where
  | none
  | int
  | float
  | bool
  | string
  | array
  | identity
  | cycle
  deriving DecidableEq

/-- The octet of a tag. -/
def Tag.byte : Tag → UInt8
  | .none => 0
  | .int => 1
  | .float => 2
  | .bool => 3
  | .string => 4
  | .array => 5
  | .identity => 6
  | .cycle => 7

/-- The hash of tagged octets, as a value of type `Int`. -/
def tagged (tag : Tag) (bytes : Bytes) : Int64 := (ofBytes (tag.byte :: bytes)).toInt64

/-- The hash of an array with the given hashes of its elements. -/
def ofElements (hashes : List Int64) : Int64 :=
  tagged .array (hashes.flatMap fun hash => wordBytes hash.toUInt64)

end BoxedValues.Hash
