import BoxedValues.Double.Decimal
import BoxedValues.Numeral

/-!
# Tokens of literal text

Reference model of `Token` with its patterns, and of `unescape`. `Token.atHead` recognises the token
with which a text begins: the longest beginning that is a keyword, a bracket, a comma, a colon, a
number or a quoted string. A text that begins with none of these begins with an error, which covers
one character or the part of an unfinished string that can be made out.
-/

set_option autoImplicit false

namespace BoxedValues

/-- The smallest parts of a literal text. -/
inductive Token where
  | error
  | none
  | true
  | false
  | int (value : Int64)
  | float (value : Double)
  | string (text : List Char)
  | openBracket
  | closeBracket
  | comma
  | colon
  deriving DecidableEq

namespace Token

/-! ## Words and punctuation -/

/-- The tokens with one spelling each. No spelling is the beginning of another. -/
def fixed : List (List Char × Token) :=
  [("None".toList, .none), ("true".toList, .true), ("false".toList, .false),
    (['['], .openBracket), ([']'], .closeBracket), ([','], .comma), ([':'], .colon)]

/-- The token of one spelling at the beginning of a text, with its length. -/
def fixedAt? (text : List Char) : Option (Token × Nat) :=
  (fixed.find? fun entry => entry.1.isPrefixOf text).map fun entry => (entry.2, entry.1.length)

/-! ## Numbers -/

/-- The number of decimal digits at the beginning of a text. -/
def digitsLength (text : List Char) : Nat := (text.takeWhile Double.isDigit).length

/-- The length of an exponent at the beginning of a text: `e`, an optional sign and digits. -/
def exponentLength : List Char → Nat
  | [] => 0
  | c :: rest =>
    let sign := match rest with
      | '+' :: _ => 1
      | '-' :: _ => 1
      | _ => 0
    let digits := digitsLength (rest.drop sign)
    if (c = 'e' ∨ c = 'E') ∧ digits ≠ 0 then 1 + sign + digits else 0

/-- The length of a fraction at the beginning of a text: a point, digits and an optional
exponent. -/
def fractionLength : List Char → Nat
  | '.' :: rest =>
    let digits := digitsLength rest
    if digits = 0 then 0 else 1 + digits + exponentLength (rest.drop digits)
  | _ => 0

/-- The token of a whole number, an error if the number does not fit in 64 bits. -/
def ofInteger (text : List Char) : Token :=
  match Numeral.toInt64? 10 text with
  | some value => .int value
  | .none => .error

/-- The token of a number with a fraction. -/
def ofFraction (text : List Char) : Token :=
  match Double.ofText? text with
  | some value => .float value
  | .none => .error

/-- The number at the beginning of a text, with its length. -/
def numberAt? (text : List Char) : Option (Token × Nat) :=
  let sign := match text with
    | '-' :: _ => 1
    | _ => 0
  let digits := digitsLength (text.drop sign)
  if digits = 0 then .none
  else
    let whole := sign + digits
    let fraction := fractionLength (text.drop whole)
    if fraction = 0 then some (ofInteger (text.take whole), whole)
    else some (ofFraction (text.take (whole + fraction)), whole + fraction)

/-! ## Strings -/

/-- The character that a letter after a backslash stands for. -/
def escaped? (c : Char) : Option Char :=
  if c = 'n' then some '\n'
  else if c = 't' then some '\t'
  else if c = 'r' then some '\r'
  else if c = '0' then some '\x00'
  else if c = '\\' then some '\\'
  else if c = '"' then some '"'
  else .none

/-- The text between the quotation marks of a string, with every escape resolved. -/
def unescape? : List Char → Option (List Char)
  | [] => some []
  | ['\\'] => .none
  | '\\' :: c :: rest => (escaped? c).bind fun e => (unescape? rest).map (e :: ·)
  | c :: rest => (unescape? rest).map (c :: ·)

/-- The number of characters behind an opening quotation mark that belong to complete items: a
character other than quotation mark and backslash, or a backslash with any character but a line
feed. -/
def itemsLength : List Char → Nat
  | [] => 0
  | ['\\'] => 0
  | '\\' :: c :: rest => if c = '\n' then 0 else 2 + itemsLength rest
  | c :: rest => if c = '"' then 0 else 1 + itemsLength rest

/-- The token of a string whose body is given. -/
def ofBody (body : List Char) : Token :=
  match unescape? body with
  | some text => .string text
  | .none => .error

/-- The token that an opening quotation mark begins, and how many of the characters behind it
belong to it. Without a closing quotation mark it is an error up to where the string stops making
sense. -/
def stringAfterQuote (rest : List Char) : Token × Nat :=
  let length := itemsLength rest
  match rest.drop length with
  | '"' :: _ => (ofBody (rest.take length), length + 1)
  | _ => (.error, length)

/-! ## The first token -/

/-- The token with which the text `c :: rest` begins, and how many characters of `rest` belong to
it. -/
def atHead (c : Char) (rest : List Char) : Token × Nat :=
  if c = '"' then stringAfterQuote rest
  else
    match (numberAt? (c :: rest)).orElse fun _ => fixedAt? (c :: rest) with
    | some (token, length) => (token, length - 1)
    | .none => (.error, 0)

end Token

end BoxedValues
