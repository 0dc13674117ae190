import ExprFront.Conversion
import ExprFront.Diagnostic

/-!
# Failures of the front end

Scanning fails with a `LexError`, the grammar with a `ParseError`.  Both name their
cause, and the wording, the code and the place of each cause are functions of it.
`Failure` joins them with the failures that are no verdict on the source: a
converter or a comparison that breaks down, and a look at a token out of reach.
-/

namespace ExprFront

/-- Why a fragment of source is no token. -/
inductive LexFault where
  /-- No rule takes the fragment. -/
  | unrecognized (fragment : String)
  /-- The number type rejects the numeral. -/
  | invalidNumber (text reason : String)
  /-- The numeral does not fit the number type. -/
  | overflow (text reason : String)
deriving DecidableEq, Repr

namespace LexFault

/-- The category of the fault. -/
def code : LexFault → Code
  | unrecognized _ => .L001
  | invalidNumber .. => .L002
  | overflow .. => .L003

/-- The message of the fault. -/
def message : LexFault → String
  | unrecognized s => "Unrecognized lexeme: '" ++ s ++ "'"
  | invalidNumber s _ => "Invalid numeric literal: '" ++ s ++ "'"
  | overflow s _ => "Numeric literal overflow: '" ++ s ++ "'"

/-- At least four upper-case hexadecimal digits of a code point. -/
def codePoint (n : Nat) : String :=
  let ds := (Nat.toDigits 16 n).map Char.toUpper
  String.ofList (List.replicate (4 - ds.length) '0' ++ ds)

/-- The advice on the fault. -/
def help : LexFault → String
  | unrecognized s =>
    match s.toList with
    | [] => "The character '' is not valid in CALF source code."
    | c :: cs =>
      if (c :: cs).all Text.isPrintable then
        "The character '" ++ s ++ "' is not valid in CALF source code."
      else "Non-printable character (Unicode: U+" ++ codePoint c.toNat ++ ") is not allowed."
  | invalidNumber _ reason | overflow _ reason => reason

/-- What may be tried instead. -/
def suggestions : LexFault → Option (List String)
  | unrecognized _ => none
  | invalidNumber .. =>
    some ["Check the numeric format", "Use a float number type for decimal literals"]
  | overflow .. => some ["Use a wider number type"]

end LexFault

/-- A fragment that is no token, and where it is. -/
structure LexError where
  fault : LexFault
  pos : Position
  filename : String
deriving DecidableEq, Repr

/-- The error as data for readers. -/
def LexError.report (e : LexError) : Report where
  family := .lexical
  code := some e.fault.code
  message := e.fault.message
  pos := e.pos
  help := some e.fault.help
  suggestions := e.fault.suggestions
  filename := e.filename
  token := none

/-- Why tokens are no program. -/
inductive ParseFault where
  /-- A token that cannot stand here. -/
  | unexpectedToken (expected : String) (found : Token)
  /-- A particle that ought to stand here. -/
  | missingToken (message : String) (pos : Position) (found : Option Token)
  /-- A comma that separates nothing; a trailing one comes before a closer. -/
  | unexpectedComma (comma : Token) (trailing : Bool)
  /-- A delimiter that is never closed. -/
  | unclosed (message : String) (pos : Position) (token : Option Token)
  /-- A token that cannot start an expression. -/
  | invalidExpression (message : String) (pos : Position) (token : Option Token)
  /-- An assignment to something that is no name. -/
  | invalidTarget (target : Token)
  /-- The source ends too early. -/
  | unexpectedEnd (expected : String) (pos : Position)
  /-- A malformed range. -/
  | invalidRange (reason : String) (token : Token)
  /-- A statement that took no token. -/
  | noProgress (pos : Position)
deriving DecidableEq, Repr

namespace ParseFault

/-- The category of the fault. -/
def code : ParseFault → Code
  | unexpectedToken .. => .P001
  | missingToken .. => .P002
  | unexpectedComma .. => .P003
  | unclosed .. => .P004
  | invalidExpression .. => .P005
  | invalidTarget _ => .P006
  | unexpectedEnd .. => .P007
  | invalidRange .. => .P008
  | noProgress _ => .P009

/-- The message of the fault. -/
def message : ParseFault → String
  | unexpectedToken expected _ => "Expecting " ++ expected
  | missingToken m .. => m
  | unexpectedComma _ trailing =>
    if trailing then "Unexpected trailing comma" else "Not expecting a comma"
  | unclosed m .. => m
  | invalidExpression m .. => m
  | invalidTarget _ => "Invalid identifier for assignment"
  | unexpectedEnd expected _ => "Unexpected end of input, expected " ++ expected
  | invalidRange reason _ => reason
  | noProgress _ => "Parser made no progress"

/-- The place of the fault. -/
def pos : ParseFault → Position
  | unexpectedToken _ t | unexpectedComma t _ | invalidTarget t | invalidRange _ t => t.pos
  | missingToken _ p _ | unclosed _ p _ | invalidExpression _ p _ | unexpectedEnd _ p
  | noProgress p => p

/-- The token that the fault is about. -/
def token? : ParseFault → Option Token
  | unexpectedToken _ t | unexpectedComma t _ | invalidTarget t | invalidRange _ t => some t
  | missingToken _ _ t | unclosed _ _ t | invalidExpression _ _ t => t
  | unexpectedEnd .. | noProgress _ => none

/-- The advice on the fault. -/
def help? : ParseFault → Option String
  | unexpectedToken expected t =>
    some ("Found '" ++ t.text ++ "' where " ++ expected ++ " was expected.")
  | missingToken _ _ found => found.map fun t => "Found '" ++ t.text ++ "' instead."
  | unexpectedComma _ trailing =>
    some (if trailing then "Remove the comma before the closing delimiter."
      else "Commas separate items; an item is missing before this one.")
  | invalidExpression _ _ (some t) =>
    if t.isEnd then none else some ("'" ++ t.text ++ "' cannot start an expression.")
  | unexpectedEnd expected _ =>
    some ("The parser reached the end of the source while expecting " ++ expected ++ ".")
  | invalidExpression _ _ none | unclosed .. | invalidTarget _ | invalidRange ..
  | noProgress _ => none

end ParseFault

/-- The message of an expression that cannot start. -/
def invalidExpressionMessage : String := "Could not parse a valid expression"

/-- Tokens that are no program, and in which source. -/
structure ParseError where
  fault : ParseFault
  filename : String
deriving DecidableEq, Repr

/-- The error as data for readers. -/
def ParseError.report (e : ParseError) : Report where
  family := .grammatical
  code := some e.fault.code
  message := e.fault.message
  pos := e.fault.pos
  help := e.fault.help?
  suggestions := none
  filename := e.filename
  token := e.fault.token?

/-- The message of an index that is out of range in a container; one beyond a signed word
of 64 bits is not even an index. -/
def indexMessage (container : String) (index : Int) : String :=
  if -2 ^ (63 : Nat) ≤ index ∧ index < 2 ^ (63 : Nat) then container ++ " index out of range"
  else "cannot fit 'int' into an index-sized integer"

/-- How the front end can fail on a source. -/
inductive Failure where
  | lexical (e : LexError)
  | grammatical (e : ParseError)
  /-- A converter, or a question about a value, that broke down. -/
  | breakdown (e : ConversionError)
  /-- A look further ahead than the buffer allows. -/
  | beyondCapacity (offset capacity : Int)
  /-- A look back beyond the buffered tokens. -/
  | beforeBuffer (offset : Int)
deriving DecidableEq, Repr

namespace Failure

/-- The failure as data for readers, if it is a verdict on the source. -/
def report? : Failure → Option Report
  | lexical e => some e.report
  | grammatical e => some e.report
  | breakdown _ | beyondCapacity .. | beforeBuffer _ => none

/-- The message of the failure. -/
def message : Failure → String
  | lexical e => e.fault.message
  | grammatical e => e.fault.message
  | breakdown e => e.message
  | beyondCapacity offset capacity =>
    "Lookahead offset " ++ toString offset ++ " exceeds buffer capacity " ++ toString capacity
  | beforeBuffer offset => indexMessage "deque" offset

/-- The failure with the name of the source in it, if it comes from the grammar. -/
def inFile (filename : String) : Failure → Failure
  | grammatical e => grammatical { e with filename := filename }
  | e => e

end Failure

end ExprFront
