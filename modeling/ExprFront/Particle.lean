/-!
# Particles and kinds

The closed vocabulary of operators and punctuation.  A particle is one of thirty
symbols of one or two characters.  `Particle.one?` and `Particle.two?` recognise
them, and `Particle.symbol` writes them.

A `Kind` classifies tokens: a particle is a kind of its own, and comments, line
breaks, the two sorts of numerals and identifiers are five more.
-/

namespace ExprFront

/-- An operator or a punctuation mark. -/
inductive Particle where
  | leftParen | rightParen | leftBracket | rightBracket | leftBrace | rightBrace
  | comma | question | colon | semicolon | dot | range | hash
  | plus | minus | multiply | divide | modulo
  | lessThan | greaterThan | lessEqual | greaterEqual
  | equal | notEqual
  | bitAnd | logicalAnd | bitOr | logicalOr | logicalNot
  | assign
deriving DecidableEq, Repr

namespace Particle

/-- All particles, in the order of the vocabulary. -/
def all : List Particle := [
  leftParen, rightParen, leftBracket, rightBracket, leftBrace, rightBrace,
  comma, question, colon, semicolon, dot, range, hash,
  plus, minus, multiply, divide, modulo,
  lessThan, greaterThan, lessEqual, greaterEqual,
  equal, notEqual,
  bitAnd, logicalAnd, bitOr, logicalOr, logicalNot,
  assign]

/-- The source text of a particle. -/
def symbol : Particle → String
  | leftParen => "("
  | rightParen => ")"
  | leftBracket => "["
  | rightBracket => "]"
  | leftBrace => "\x7b"
  | rightBrace => "\x7d"
  | comma => ","
  | question => "?"
  | colon => ":"
  | semicolon => ";"
  | dot => "."
  | range => ".."
  | hash => "#"
  | plus => "+"
  | minus => "-"
  | multiply => "*"
  | divide => "/"
  | modulo => "%"
  | lessThan => "<"
  | greaterThan => ">"
  | lessEqual => "<="
  | greaterEqual => ">="
  | equal => "=="
  | notEqual => "!="
  | bitAnd => "&"
  | logicalAnd => "&&"
  | bitOr => "|"
  | logicalOr => "||"
  | logicalNot => "!"
  | assign => "="

/-- The name of a particle in token dumps. -/
def name : Particle → String
  | leftParen => "LEFT_PAREN"
  | rightParen => "RIGHT_PAREN"
  | leftBracket => "LEFT_BRACKET"
  | rightBracket => "RIGHT_BRACKET"
  | leftBrace => "LEFT_BRACE"
  | rightBrace => "RIGHT_BRACE"
  | comma => "COMMA"
  | question => "QUESTION"
  | colon => "COLON"
  | semicolon => "SEMICOLON"
  | dot => "DOT"
  | range => "RANGE"
  | hash => "HASH"
  | plus => "PLUS"
  | minus => "MINUS"
  | multiply => "MULTIPLY"
  | divide => "DIVIDE"
  | modulo => "MODULO"
  | lessThan => "LESS_THAN"
  | greaterThan => "GREATER_THAN"
  | lessEqual => "LESS_EQUAL"
  | greaterEqual => "GREATER_EQUAL"
  | equal => "EQUAL"
  | notEqual => "NOT_EQUAL"
  | bitAnd => "BIT_AND"
  | logicalAnd => "LOGICAL_AND"
  | bitOr => "BIT_OR"
  | logicalOr => "LOGICAL_OR"
  | logicalNot => "LOGICAL_NOT"
  | assign => "ASSIGN"

/-- The particle of one character. -/
def one? : Char → Option Particle
  | '(' => some leftParen
  | ')' => some rightParen
  | '[' => some leftBracket
  | ']' => some rightBracket
  | '\x7b' => some leftBrace
  | '\x7d' => some rightBrace
  | ',' => some comma
  | '?' => some question
  | ':' => some colon
  | ';' => some semicolon
  | '.' => some dot
  | '#' => some hash
  | '+' => some plus
  | '-' => some minus
  | '*' => some multiply
  | '/' => some divide
  | '%' => some modulo
  | '<' => some lessThan
  | '>' => some greaterThan
  | '&' => some bitAnd
  | '|' => some bitOr
  | '!' => some logicalNot
  | '=' => some assign
  | _ => none

/-- The particle of two characters. -/
def two? : Char → Char → Option Particle
  | '.', '.' => some range
  | '<', '=' => some lessEqual
  | '>', '=' => some greaterEqual
  | '=', '=' => some equal
  | '!', '=' => some notEqual
  | '&', '&' => some logicalAnd
  | '|', '|' => some logicalOr
  | _, _ => none

/-- The particle that a text spells. -/
def ofSymbol? (s : String) : Option Particle :=
  match s.toList with
  | [c] => one? c
  | [c, d] => two? c d
  | _ => none

end Particle

/-- What a token can be asked for. -/
inductive Kind where
  | comment | newline | integer | float | identifier
  | particle (p : Particle)
deriving DecidableEq, Repr

namespace Kind

/-- All kinds, in the order of the vocabulary. -/
def all : List Kind :=
  [comment, newline, integer, float, identifier] ++ Particle.all.map particle

/-- The name of a kind. -/
def name : Kind → String
  | comment => "COMMENT"
  | newline => "NEWLINE"
  | integer => "INTEGER"
  | float => "FLOAT"
  | identifier => "IDENTIFIER"
  | particle p => p.name

/-- The source text of a particle, or else the name of the kind. -/
def symbol : Kind → String
  | particle p => p.symbol
  | k => k.name

/-- The place of a kind in the vocabulary, counted from one. -/
def number (k : Kind) : Nat := all.idxOf k + 1

/-- The kind of a name. -/
def ofName? (s : String) : Option Kind := all.find? (·.name = s)

end Kind

end ExprFront
