import BoxedValues.Double.Decimal
import BoxedValues.Machine.Arguments
import BoxedValues.Numeral
import BoxedValues.Text.Casing
import BoxedValues.Text.Split
import BoxedValues.Text.WhiteSpace

/-!
# The methods of `String`

Reference model of `string_length`, `string_to_lower`, `string_to_upper`, `string_pad_left`,
`string_trim`, `string_trim_start`, `string_trim_end`, `string_split`, `string_lines`,
`string_chars`, `string_parse_int` and `string_parse_float`.

Lengths count octets, as indexes do. The other methods work on the text of the octets, in which
every ill-formed part is the character U+FFFD. No method changes a string: the result is a new
value, except where `padLeft` has nothing to add.
-/

set_option autoImplicit false

namespace BoxedValues

namespace StringMethod

/-- `bytes` behind as many copies of `padding` as fit in `width` octets together with it; nothing
if there is no room or nothing to fill it with. -/
def padLeft? (bytes : Bytes) (width : Int64) (padding : Bytes) : Option Bytes :=
  if width ≤ 0 ∨ width.toNatClampNeg ≤ bytes.length ∨ padding.isEmpty then none
  else
    let copies := (width.toNatClampNeg - bytes.length) / padding.length
    some ((List.replicate copies padding).flatten ++ bytes)

/-- A text without white space, or copies of a pattern, at its beginning. -/
def trimStartText (pattern : Option Bytes) (text : List Char) : List Char :=
  match pattern with
  | some pattern => Split.trimStart (Utf8.decodeLossy pattern) text
  | none => WhiteSpace.trimStart text

/-- A text without white space, or copies of a pattern, at its end. -/
def trimEndText (pattern : Option Bytes) (text : List Char) : List Char :=
  match pattern with
  | some pattern => Split.trimEnd (Utf8.decodeLossy pattern) text
  | none => WhiteSpace.trimEnd text

/-- The integer of a numeral in a radix between 2 and 36, ten if none is given. -/
def integer? (radix : Option Int64) (text : List Char) : Option Int64 :=
  let radix := radix.getD 10
  if 2 ≤ radix ∧ radix ≤ 36 then Numeral.toInt64? radix.toNatClampNeg text else none

end StringMethod

/-- Run a method of `String`. -/
def Machine.runString (machine : Machine) (method : StringMethod) (args : List Ref) :
    Exec Ref := do
  let bytes ← Arguments.receiver .string args
  let text := Utf8.decodeLossy bytes
  match method with
  | .length => machine.newInt (.ofNat bytes.length)
  | .toLower => machine.newText (Casing.toLower text)
  | .toUpper => machine.newText (Casing.toUpper text)
  | .padLeft =>
    let width ← Arguments.required .int args 1
    let padding ← Arguments.required .string args 2
    match StringMethod.padLeft? bytes width padding with
    | some padded => machine.newString padded
    | none => Arguments.given args 0
  | .trim => machine.newText (WhiteSpace.trim text)
  | .trimStart =>
    let pattern ← Arguments.optional .string args 1
    machine.newText (StringMethod.trimStartText pattern text)
  | .trimEnd =>
    let pattern ← Arguments.optional .string args 1
    machine.newText (StringMethod.trimEndText pattern text)
  | .split =>
    let separator ← Arguments.required .string args 1
    machine.newTexts (Split.split (Utf8.decodeLossy separator) text)
  | .lines => machine.newTexts (Split.lines text)
  | .chars => machine.newTexts (text.map fun c => [c])
  | .parseInt =>
    match StringMethod.integer? (← Arguments.optional .int args 1) text with
    | some value => machine.newInt value
    | none => return machine.noneValue
  | .parseFloat =>
    match Double.ofText? text with
    | some value => machine.newFloat value
    | none => return machine.noneValue

end BoxedValues
