import BoxedValues.Text.CaseClasses
import BoxedValues.Text.CaseMaps

/-!
# Upper and lower case of a text

The case maps behind `string_to_lower` and `string_to_upper`. `Casing.toLower` and `Casing.toUpper`
map a text character by character. One rule looks around: a capital sigma becomes the final small
sigma when a cased letter stands before it and none behind it (`Casing.isFinal`).
-/

set_option autoImplicit false

namespace BoxedValues.Casing

/-- The image of a character under a case map given by its two tables. -/
def image (runs : List CaseRun) (several : List (Nat × List Nat)) (c : Char) : List Char :=
  match several.lookup c.toNat with
  | some codes => codes.map Char.ofNat
  | none => [Char.ofNat (CaseRun.move runs c.toNat)]

/-- Whether the next character that is not case-ignorable is cased. -/
def meetsCased (text : List Char) : Bool :=
  match text.dropWhile CaseIgnorable.contains with
  | [] => false
  | c :: _ => Cased.contains c

/-- Whether a sigma between `before` (nearest character first) and `after` ends a word. -/
def isFinal (before after : List Char) : Bool := meetsCased before && !meetsCased after

/-- The lower case of a text that follows the characters `before` (nearest first). -/
def lowerFrom (before : List Char) : List Char → List Char
  | [] => []
  | c :: rest =>
    let mapped :=
      if c = 'Σ' then [if isFinal before rest then 'ς' else 'σ']
      else image LowerCase.runs LowerCase.several c
    mapped ++ lowerFrom (c :: before) rest

/-- The lower case of a text. -/
def toLower (text : List Char) : List Char := lowerFrom [] text

/-- The upper case of a text. -/
def toUpper (text : List Char) : List Char :=
  text.flatMap (image UpperCase.runs UpperCase.several)

end BoxedValues.Casing
