import BoxedValues.Text.DefaultIgnorable
import BoxedValues.Text.GraphemeExtend
import BoxedValues.Text.Unprintable

/-!
# Quoted text

How a string is written where it is described for a developer: a text between quotation marks in
which every character can be told apart. The usual characters have a letter after a backslash, those
that would not show have their number.
-/

set_option autoImplicit false

namespace BoxedValues.Quoted

/-- The halfwidth sound marks. They extend the character before them, but with a width of their
own, so that they are seen beside a quotation mark. -/
def soundMarks : CodeRanges := [(0xFF9E, 0xFF9F)]

/-- Whether a character would not be seen, or not apart from the one before it. -/
def isHidden (c : Char) : Bool :=
  Unprintable.contains c || DefaultIgnorable.contains c ||
    (GraphemeExtend.contains c && !soundMarks.contains c)

/-- How a character is shown inside quotation marks. -/
def escape (c : Char) : List Char :=
  if c = '\x00' then ['\\', '0']
  else if c = '\t' then ['\\', 't']
  else if c = '\n' then ['\\', 'n']
  else if c = '\r' then ['\\', 'r']
  else if c = '"' then ['\\', '"']
  else if c = '\\' then ['\\', '\\']
  else if isHidden c then
    ['\\', 'u', '\x7b'] ++ Nat.toDigits 16 c.toNat ++ ['\x7d']
  else [c]

/-- A text between quotation marks. -/
def quote (text : List Char) : List Char := '"' :: text.flatMap escape ++ ['"']

end BoxedValues.Quoted
