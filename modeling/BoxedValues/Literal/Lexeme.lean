import BoxedValues.Literal.Token

/-!
# Lexemes

Reference model of the lexer of `Token` and of the spans that `Reader.bump` and `Reader.peek` see.
`Lexeme.scan` cuts a text into tokens with their places. Blanks between tokens are skipped; every
other character belongs to exactly one lexeme, also where the text makes no sense.
-/

set_option autoImplicit false

namespace BoxedValues

/-- A token with the place and the characters that it covers. -/
structure Lexeme where
  token : Token
  /-- The number of octets before the token. -/
  start : Nat
  /-- The characters of the token. -/
  text : List Char
  deriving DecidableEq

namespace Lexeme

/-- The number of octets of a text. -/
def textSize (text : List Char) : Nat := text.foldr (fun c size => c.utf8Size + size) 0

/-- The number of octets up to the end of the token. -/
def stop (lexeme : Lexeme) : Nat := lexeme.start + textSize lexeme.text

/-- Whether a character separates tokens and is otherwise skipped. -/
def isBlank (c : Char) : Bool := c == ' ' || c == '\t' || c == '\r' || c == '\n'

/-- The lexemes of a text that begins after `start` octets. -/
def scanFrom (start : Nat) : List Char → List Lexeme
  | [] => []
  | c :: rest =>
    if isBlank c then scanFrom (start + c.utf8Size) rest
    else
      let (token, further) := Token.atHead c rest
      let text := c :: rest.take further
      ⟨token, start, text⟩ :: scanFrom (start + textSize text) (rest.drop further)
termination_by text => text.length
decreasing_by all_goals simp only [List.length_drop, List.length_cons]; omega

/-- The lexemes of a text. -/
def scan (text : List Char) : List Lexeme := scanFrom 0 text

end Lexeme

end BoxedValues
