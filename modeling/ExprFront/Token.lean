import ExprFront.Particle
import ExprFront.Position
import ExprFront.Value

/-!
# Tokens

A token is a classified fragment of source text with its position.  The class is a
`Lexeme`: a number that has already been converted, a name, a particle, a skipped
fragment (a comment or a line break), or the end of input.
-/

namespace ExprFront

/-- The class of a token, with what the grammar needs to know of it. -/
inductive Lexeme where
  | number (v : Value)
  | name (s : String)
  | particle (p : Particle)
  | skip
  | endOfInput
deriving DecidableEq, Repr

/-- Does the lexeme answer to the kind?  Numerals with and without a fraction are not
told apart, and what is skipped answers to nothing. -/
def Lexeme.answers (l : Lexeme) (k : Kind) : Bool :=
  match l with
  | number _ => k = .integer || k = .float
  | name _ => k = .identifier
  | particle p => k = .particle p
  | skip | endOfInput => false

/-- A classified fragment of source text. -/
structure Token where
  lexeme : Lexeme
  pos : Position
  text : String
deriving DecidableEq, Repr

namespace Token

/-- Is the token a comment or a line break? -/
def isSkip (t : Token) : Bool := t.lexeme = .skip

/-- Is the token the end of input? -/
def isEnd (t : Token) : Bool := t.lexeme = .endOfInput

/-- Does the token answer to the kind? -/
def answers (t : Token) (k : Kind) : Bool := t.lexeme.answers k

/-- The name that the token holds, if it is one. -/
def name? (t : Token) : Option String :=
  match t.lexeme with
  | .name s => some s
  | _ => none

/-- The kind that a token is counted under.  A numeral is told by its point, a skipped
fragment by its slashes; the end of input has no kind. -/
def kind? (t : Token) : Option Kind :=
  match t.lexeme with
  | .number _ => some (if '.' ∈ t.text.toList then .float else .integer)
  | .name _ => some .identifier
  | .particle p => some (.particle p)
  | .skip => some (if ['/', '/'] <+: t.text.toList then .comment else .newline)
  | .endOfInput => none

/-- The token as dumps show it, on one line. -/
def dump (t : Token) : String :=
  let place := "@" ++ t.pos.text
  match t.lexeme with
  | .number v => "NUMBER(" ++ Text.quoted t.text ++ " -> " ++ v.shown ++ ")" ++ place
  | .name s => "IDENTIFIER(" ++ Text.quoted s ++ ")" ++ place
  | .particle p => p.name ++ "(" ++ Text.quoted t.text ++ ")" ++ place
  | .skip => "SKIP(" ++ Text.quoted t.text ++ ")" ++ place
  | .endOfInput => "EOF" ++ place

/-- Are the integers in the token short enough to be written? -/
def isPrintable (t : Token) : Bool :=
  match t.lexeme with
  | .number v => v.isPrintable
  | _ => true

end Token

end ExprFront
