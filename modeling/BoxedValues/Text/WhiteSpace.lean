import BoxedValues.Text.CodeRanges

/-!
# The `White_Space` property

Trimming without a pattern removes the characters of this class at the ends of a text.
-/

set_option autoImplicit false

namespace BoxedValues.WhiteSpace

/-- The code points with the `White_Space` property. -/
def ranges : CodeRanges := [
  (0x9, 0xD), (0x20, 0x20), (0x85, 0x85), (0xA0, 0xA0), (0x1680, 0x1680), (0x2000, 0x200A),
  (0x2028, 0x2029), (0x202F, 0x202F), (0x205F, 0x205F), (0x3000, 0x3000)]

/-- Whether a character is white space. -/
def contains (c : Char) : Bool := ranges.contains c

example : contains ' ' = true ∧ contains '\n' = true ∧ contains 'a' = false := by decide

/-- A text without its leading white space. -/
def trimStart (text : List Char) : List Char := text.dropWhile contains

/-- A text without its trailing white space. -/
def trimEnd (text : List Char) : List Char := (text.reverse.dropWhile contains).reverse

/-- A text without white space at either end. -/
def trim (text : List Char) : List Char := trimEnd (trimStart text)

end BoxedValues.WhiteSpace
