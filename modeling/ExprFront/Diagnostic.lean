import ExprFront.Position
import ExprFront.Text.Quoted
import ExprFront.Text.Uppercase
import ExprFront.Token

/-!
# Diagnostics

A `Diagnostic` is what a reader of an error sees: severity, code, message, place and
advice.  A `Report` is an error of the front end as data: it belongs to a `Family`,
and its code, if it has one, is one of the family's.
-/

namespace ExprFront

/-- What is shown of an error. -/
structure Diagnostic where
  message : String
  pos : Position
  severity : String
  code : Option String
  help : Option String
  suggestions : Option (List String)
  filename : String
deriving DecidableEq, Repr

/-- The name that stands for a source without a name. -/
def anonymous : String := "<string>"

/-- The lines of a diagnostic.  An empty code, help or list of suggestions is left
out. -/
def Diagnostic.render (d : Diagnostic) : String :=
  let code := match d.code.getD "" with
    | "" => ""
    | c => "[" ++ c ++ "]"
  let help := match d.help.getD "" with
    | "" => ""
    | h => "  help: " ++ h ++ "\n"
  let suggestions := match d.suggestions.getD [] with
    | [] => ""
    | ss => "  suggestions:\n" ++ String.join (ss.map fun s => "    - " ++ s ++ "\n")
  Text.uppercase d.severity ++ code ++ ": " ++ d.message ++ "\n"
    ++ "  --> " ++ d.filename ++ ":" ++ d.pos.text ++ "\n" ++ help ++ suggestions

/-- The stage that an error comes from. -/
inductive Family where
  | general | lexical | grammatical
deriving DecidableEq, Repr

/-- The name of errors of a family. -/
def Family.name : Family → String
  | general => "CalfError"
  | lexical => "LexerError"
  | grammatical => "ParseError"

/-- The categories of errors. -/
inductive Code where
  | L001 | L002 | L003
  | P001 | P002 | P003 | P004 | P005 | P006 | P007 | P008 | P009
deriving DecidableEq, Repr

namespace Code

/-- The code as text. -/
def text : Code → String
  | L001 => "L001"
  | L002 => "L002"
  | L003 => "L003"
  | P001 => "P001"
  | P002 => "P002"
  | P003 => "P003"
  | P004 => "P004"
  | P005 => "P005"
  | P006 => "P006"
  | P007 => "P007"
  | P008 => "P008"
  | P009 => "P009"

/-- What the code stands for. -/
def description : Code → String
  | L001 => "Unrecognized lexeme"
  | L002 => "Invalid numeric literal"
  | L003 => "Number literal overflow"
  | P001 => "Unexpected token"
  | P002 => "Expected token not found"
  | P003 => "Unexpected comma"
  | P004 => "Unclosed delimiter"
  | P005 => "Invalid expression"
  | P006 => "Invalid assignment target"
  | P007 => "Unexpected end of input"
  | P008 => "Invalid range literal"
  | P009 => "Parser made no progress"

end Code

/-- The codes of a family. -/
def Family.codes : Family → List Code
  | general => []
  | lexical => [.L001, .L002, .L003]
  | grammatical => [.P001, .P002, .P003, .P004, .P005, .P006, .P007, .P008, .P009]

/-- An error of the front end as data. -/
structure Report where
  family : Family
  code : Option Code
  message : String
  pos : Position
  help : Option String
  suggestions : Option (List String)
  filename : String
  /-- The token that the error is about. -/
  token : Option Token
deriving DecidableEq, Repr

namespace Report

/-- What is shown of the error. -/
def diagnostic (r : Report) : Diagnostic where
  message := r.message
  pos := r.pos
  severity := "error"
  code := r.code.map Code.text
  help := r.help
  suggestions := r.suggestions
  filename := r.filename

/-- The error as it is printed. -/
def render (r : Report) : String := r.diagnostic.render

/-- What the error's code stands for. -/
def description (r : Report) : Option String := r.code.map Code.description

end Report

/-- A code that its family does not have. -/
structure UnknownCode where
  code : String
  family : Family
deriving DecidableEq, Repr

/-- The text of the failure. -/
def UnknownCode.message (u : UnknownCode) : String :=
  "Unknown error code " ++ Text.quoted u.code ++ " for " ++ u.family.name

/-- The code of a family that a text spells. -/
def Family.code (f : Family) (text : String) : Except UnknownCode Code :=
  match f.codes.find? (·.text = text) with
  | some c => .ok c
  | none => .error ⟨text, f⟩

/-- A report made by hand, its code given as text. -/
def Family.report (f : Family) (message : String) (pos : Position) (code help : Option String)
    (suggestions : Option (List String)) (filename : String) : Except UnknownCode Report :=
  match code with
  | none => .ok ⟨f, none, message, pos, help, suggestions, filename, none⟩
  | some s => (f.code s).map fun c => ⟨f, some c, message, pos, help, suggestions, filename, none⟩

end ExprFront
