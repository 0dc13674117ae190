import ExprFront.CommandLine.Arguments
import ExprFront.Program
import ExprFront.Tree

/-!
# Running the command

`run` is the whole command as a function: from the arguments and the standard input to the
exit status and the two output texts.  Each source is handled on its own.  Its output is one
line for each statement or token; a source with an error adds nothing to the output, and
its diagnostic goes to the error text.  The first `-` among the sources stands for the
standard input, and any later one for an empty text.
-/

namespace ExprFront.CommandLine

/-- The synopsis. -/
def usage : String :=
  "usage: calf [-h] [--tokens] [--skips]\n"
    ++ "            [--number-type \x7b" ++ String.intercalate "," choices ++ "\x7d]\n"
    ++ "            [--debug]\n"
    ++ "            SOURCE [SOURCE ...]\n"

/-- The full help. -/
def helpText : String :=
  usage ++ "\n"
    ++ "CALF front end: tokenize and parse CALF expressions\n\n"
    ++ "positional arguments:\n"
    ++ "  SOURCE                Source text to parse ('-' reads standard input)\n\n"
    ++ "options:\n"
    ++ "  -h, --help            show this help message and exit\n"
    ++ "  --tokens              Print the token stream instead of the AST\n"
    ++ "  --skips               With --tokens, also print comment and newline tokens\n"
    ++ "  --number-type \x7b" ++ String.intercalate "," choices ++ "\x7d\n"
    ++ "                        Type numeric literals are parsed into (default: float)\n"
    ++ "  --debug               Log lexer and parser activity to stderr\n"

/-- What the command leaves. -/
structure Result where
  status : Nat
  output : String
  errors : String
deriving DecidableEq, Repr

/-- A text with a name for diagnostics. -/
structure Source where
  filename : String
  text : String
deriving DecidableEq, Repr

/-- The sources that arguments stand for. -/
def sourcesOf (stdin : String) : List String → List Source
  | [] => []
  | "-" :: rest => ⟨"<stdin>", stdin⟩ :: sourcesOf "" rest
  | arg :: rest => ⟨"<argument>", arg⟩ :: sourcesOf stdin rest

/-! ## The log -/

/-- A line of the log. -/
def logLine (origin text : String) : String := "DEBUG " ++ origin ++ ": " ++ text ++ "\n"

/-- The log of the tokens fetched between two states of a buffer. -/
def fetchLog (before after : Buffer) : String :=
  String.join ((before.cursor.fetchedUpTo after.cursor.offset).map fun t =>
    logLine "calf.parser.lookahead" ("Buffered " ++ t.dump))

/-- The log of one statement. -/
def statementLog (s : Stmt) : String :=
  logLine "calf.parser.parser" ("Parsed " ++ s.toTree.className ++ " at " ++ s.pos.text)

/-- The log of parsing: what is fetched for each statement, the statement, and at the end of
input the number of statements; `done` counts those before. -/
def parseLog (filename : String) : (fuel done : Nat) → Buffer → String
  | 0, _, _ => ""
  | fuel + 1, done, b =>
    match Buffer.isEnd b with
    | .error _ b' => fetchLog b b'
    | .ok true b' =>
      fetchLog b b' ++ logLine "calf.parser.parser"
        ("Built AST with " ++ toString done ++ " statements from " ++ filename)
    | .ok false b' =>
      match Grammar.statement b' with
      | .error _ b'' => fetchLog b b''
      | .ok s b'' => fetchLog b b'' ++ statementLog s ++ parseLog filename fuel (done + 1) b''

/-- The log of tokenizing. -/
def tokenLog (filename : String) (ts : List Token) : String :=
  logLine "calf.lexer.lexer"
    ("Tokenized " ++ filename ++ " into " ++ toString ts.length ++ " tokens")

/-! ## Sources -/

/-- What one source adds to the output and to the errors. -/
structure Contribution where
  failed : Bool
  output : String
  errors : String
deriving DecidableEq, Repr

/-- The error text of a failure. -/
def errorText (e : Failure) : String :=
  match e.report? with
  | some r => r.render
  | none => e.message ++ "\n"

/-- One line for each text. -/
def lines (texts : List String) : String := String.join (texts.map (· ++ "\n"))

/-- The settings for a source. -/
def Arguments.config (a : Arguments) (source : Source) : Config :=
  ⟨a.numberType.converter, source.filename, Config.standardLookahead⟩

/-- The dumps of tokens, if their integers are short enough. -/
def dumpAll (ts : List Token) : Except FormatError (List String) :=
  if ts.all Token.isPrintable then .ok (ts.map Token.dump) else .error .overlong

/-- What a source adds when its tokens are printed. -/
def tokenContribution (a : Arguments) (source : Source) : Except FormatError Contribution :=
  match tokenize source.text source.filename a.numberType.converter a.skips with
  | .error e => .ok ⟨true, "", errorText e⟩
  | .ok ts => (dumpAll ts).map fun dumps =>
    ⟨false, lines dumps, if a.debug then tokenLog source.filename ts else ""⟩

/-- What a source adds when its statements are printed. -/
def programContribution (a : Arguments) (source : Source) : Except FormatError Contribution :=
  let config := a.config source
  let session := config.session source.text
  let log := if a.debug then parseLog source.filename (session.weight + 1) 0 session else ""
  match parseProgram config source.text with
  | .error e => .ok ⟨true, "", log ++ errorText e⟩
  | .ok ss => (ss.mapM Stmt.format).map fun texts => ⟨false, lines texts, log⟩

/-- What a source adds. -/
def contribution (a : Arguments) (source : Source) : Except FormatError Contribution :=
  if a.tokens then tokenContribution a source else programContribution a source

/-- The contributions of all sources, put together in order. -/
def gather (cs : List Contribution) : Result where
  status := if cs.any Contribution.failed then 1 else 0
  output := String.join (cs.map Contribution.output)
  errors := String.join (cs.map Contribution.errors)

/-- How the command can break down. -/
inductive Breakdown where
  /-- An output cannot be written. -/
  | format (e : FormatError)
  /-- There is no number type to read the sources with. -/
  | numberType (e : NumberTypeError)
deriving DecidableEq, Repr

/-- The text of the failure. -/
def Breakdown.message : Breakdown → String
  | format e => e.message
  | numberType e => e.message

/-- What all sources add, put together. -/
def runSources (a : Arguments) (stdin : String) : Except FormatError Result :=
  ((sourcesOf stdin a.sources).mapM (contribution a)).map gather

/-- The command.  With a number type to read the sources with, it breaks down only on an
integer too long to be written. -/
def run (argv : List String) (stdin : String) : Except Breakdown Result :=
  match Arguments.read argv with
  | .error .help => .ok ⟨0, helpText, ""⟩
  | .error (.misuse m) => .ok ⟨2, "", usage ++ "calf: error: " ++ m.message ++ "\n"⟩
  | .error .noNumberType => .error (.numberType (.unusable "[]"))
  | .ok a =>
    match runSources a stdin with
    | .ok r => .ok r
    | .error e => .error (.format e)

end ExprFront.CommandLine
