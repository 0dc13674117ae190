import ExprFront.NumberType

/-!
# Command line arguments

The command takes options and one or more sources.  An argument is an option if it starts
with a dash and is neither a lone dash, a negative number, nor a text with a blank in it;
after a lone double dash everything is a source.  A long option may be shortened as long
as it stays unique, and may carry its argument after an equals sign.  The sources have to
stand together: a second run of them is left over, and so are unknown options.

`Arguments.read` gives the choices made, or says why there are none: a request for help,
the first misuse, or a number type chosen as nothing.
-/

namespace ExprFront.CommandLine

/-- The options. -/
inductive Switch where
  | help | tokens | skips | numberType | debug
deriving DecidableEq, Repr

/-- The spellings of the options. -/
def spellings : List (String × Switch) :=
  [("-h", .help), ("--help", .help), ("--tokens", .tokens), ("--skips", .skips),
    ("--number-type", .numberType), ("--debug", .debug)]

/-- The option as messages name it. -/
def Switch.name : Switch → String
  | help => "-h/--help"
  | tokens => "--tokens"
  | skips => "--skips"
  | numberType => "--number-type"
  | debug => "--debug"

/-- The names that a number type can be chosen by, in alphabetical order. -/
def choices : List String := NamedType.names.mergeSort (fun a b => a ≤ b)

/-- How the command can be misused. -/
inductive Misuse where
  | missingSource
  | unrecognized (arguments : List String)
  | missingArgument (s : Switch)
  | invalidChoice (s : Switch) (value : String)
  | ignoredArgument (s : Switch) (value : String)
  | ambiguous (argument : String) (candidates : List String)
deriving DecidableEq, Repr

/-- The text of a misuse. -/
def Misuse.message : Misuse → String
  | missingSource => "the following arguments are required: SOURCE"
  | unrecognized args => "unrecognized arguments: " ++ String.intercalate " " args
  | missingArgument s => "argument " ++ s.name ++ ": expected one argument"
  | invalidChoice s value =>
    "argument " ++ s.name ++ ": invalid choice: " ++ Text.quoted value ++ " (choose from "
      ++ String.intercalate ", " (choices.map Text.quoted) ++ ")"
  | ignoredArgument s value =>
    "argument " ++ s.name ++ ": ignored explicit argument " ++ Text.quoted value
  | ambiguous argument candidates =>
    "ambiguous option: " ++ argument ++ " could match " ++ String.intercalate ", " candidates

/-! ## What an argument is -/

/-- What an argument is.  An option may have an argument of its own attached, after an
equals sign or, if it is short, directly. -/
inductive Role where
  | source
  | separator
  | option (s : Switch) (short : Bool) (attached : Option String)
  | unknown
deriving DecidableEq, Repr

/-- An argument with what it is. -/
structure Item where
  text : String
  role : Role
deriving DecidableEq, Repr

/-- Is the text a minus, digits, and perhaps a point with digits after it?  A line break
may follow. -/
def isNegativeNumber (cs : List Char) : Bool :=
  let isDigit (c : Char) : Bool := (Text.decimalValue? c).isSome
  match cs with
  | '-' :: body =>
    let body := if body.getLast? = some '\n' then body.dropLast else body
    match body.dropWhile isDigit with
    | [] => !body.isEmpty
    | '.' :: fraction => !fraction.isEmpty && fraction.all isDigit
    | _ => false
  | _ => false

/-- The text before the first equals sign, and the one after it if there is a sign. -/
def splitAtSign (cs : List Char) : List Char × Option (List Char) :=
  match cs.dropWhile (· ≠ '=') with
  | _ :: value => (cs.takeWhile (· ≠ '='), some value)
  | [] => (cs, none)

/-- The options that an argument may stand for without spelling them out. -/
def candidates (cs : List Char) : List (String × Role) :=
  match cs with
  | '-' :: '-' :: _ =>
    let (name, value) := splitAtSign cs
    (spellings.filter fun (spelling, _) => name.isPrefixOf spelling.toList).map
      fun (spelling, s) => (spelling, .option s false (value.map String.ofList))
  | '-' :: c :: rest =>
    (spellings.filter fun (spelling, _) => spelling.toList = ['-', c]).map
      fun (spelling, s) => (spelling, .option s true (some (String.ofList rest)))
  | _ => []

/-- What an argument before the double dash is. -/
def classify (arg : String) : Except Misuse Role :=
  let cs := arg.toList
  let (name, value) := splitAtSign cs
  let isShort (spelling : List Char) : Bool := spelling.length = 2
  if cs.head? ≠ some '-' then .ok .source
  else
    match spellings.lookup arg with
    | some s => .ok (.option s (isShort cs) none)
    | none =>
      if cs.length = 1 then .ok .source
      else
        match value, spellings.lookup (String.ofList name) with
        | some value, some s => .ok (.option s (isShort name) (some (String.ofList value)))
        | _, _ =>
          match candidates cs with
          | [(_, role)] => .ok role
          | [] => .ok (if isNegativeNumber cs || ' ' ∈ cs then .source else .unknown)
          | several => .error (.ambiguous arg (several.map Prod.fst))

/-- What each argument is. -/
def classifyAll : List String → Except Misuse (List Item)
  | [] => .ok []
  | "--" :: rest => .ok (⟨"--", .separator⟩ :: rest.map (⟨·, .source⟩))
  | arg :: rest => do
    let role ← classify arg
    let items ← classifyAll rest
    return ⟨arg, role⟩ :: items

/-! ## What the arguments choose -/

/-- The choices made on the command line. -/
structure Arguments where
  sources : List String
  tokens : Bool
  skips : Bool
  debug : Bool
  numberType : NamedType
deriving DecidableEq, Repr

/-- The choices made so far, and what is left over. -/
structure Progress where
  chosen : Arguments
  hasSources : Bool
  /-- Is the number type chosen as nothing? -/
  lacksType : Bool
  leftover : List String
deriving DecidableEq, Repr

/-- Before the first argument. -/
def Progress.start : Progress :=
  ⟨⟨[], false, false, false, .float⟩, false, false, []⟩

/-- Ends a run of sources.  The first run with a source in it is taken, less its first
double dash; any other is left over. -/
def Progress.closeRun (p : Progress) (run : List Item) : Progress :=
  if !p.hasSources && run.any (·.role = .source) then
    { p with
      chosen := { p.chosen with sources := (run.map Item.text).erase "--" }
      hasSources := true }
  else { p with leftover := p.leftover ++ run.map Item.text }

/-- Why reading the arguments ends without choices. -/
inductive Stop where
  | help
  | misuse (m : Misuse)
  /-- The number type is chosen as nothing. -/
  | noNumberType
deriving DecidableEq, Repr

/-- What a short request for help leaves of a text attached to it: it takes the letters
that ask for help once more. -/
def ignoredByShortHelp (value : String) : Option String :=
  match value.toList, value.toList.dropWhile (· = 'h') with
  | _ :: _, [] => none
  | _, rest => some (String.ofList rest)

/-- Sets an option that takes no argument. -/
def Progress.set (p : Progress) (s : Switch) (short : Bool) (attached : Option String) :
    Except Stop Progress :=
  match s, attached with
  | .help, _ =>
    match if short then attached.bind ignoredByShortHelp else attached with
    | some value => .error (.misuse (.ignoredArgument s value))
    | none => .error .help
  | _, some value => .error (.misuse (.ignoredArgument s value))
  | .tokens, none => .ok { p with chosen := { p.chosen with tokens := true } }
  | .skips, none => .ok { p with chosen := { p.chosen with skips := true } }
  | .debug, none => .ok { p with chosen := { p.chosen with debug := true } }
  | .numberType, none => .error (.misuse (.missingArgument s))

/-- Chooses the number type.  A double dash is dropped from what an option takes, and so
chooses nothing. -/
def Progress.setNumberType (p : Progress) (value : String) : Except Stop Progress :=
  if value = "--" then .ok { p with lacksType := true }
  else
    match NamedType.ofName? value with
    | some t => .ok { p with chosen := { p.chosen with numberType := t }, lacksType := false }
    | none => .error (.misuse (.invalidChoice .numberType value))

/-- Reads the arguments from left to right; `run` holds the sources since the last
option. -/
def Progress.read (p : Progress) (run : List Item) : List Item → Except Stop Progress
  | [] => .ok (p.closeRun run)
  | item :: rest =>
    match item.role with
    | .source | .separator => p.read (run ++ [item]) rest
    | .unknown =>
      let p := p.closeRun run
      Progress.read { p with leftover := p.leftover ++ [item.text] } [] rest
    | .option .numberType _ none =>
      match rest with
      | ⟨value, .source⟩ :: rest =>
        match (p.closeRun run).setNumberType value with
        | .error e => .error e
        | .ok p => p.read [] rest
      | _ => .error (.misuse (.missingArgument .numberType))
    | .option .numberType _ (some value) =>
      match (p.closeRun run).setNumberType value with
      | .error e => .error e
      | .ok p => p.read [] rest
    | .option s short attached =>
      match (p.closeRun run).set s short attached with
      | .error e => .error e
      | .ok p => p.read [] rest

/-- The choices that the arguments make. -/
def Arguments.read (argv : List String) : Except Stop Arguments :=
  match classifyAll argv with
  | .error m => .error (.misuse m)
  | .ok items =>
    match Progress.start.read [] items with
    | .error e => .error e
    | .ok p =>
      if !p.hasSources then .error (.misuse .missingSource)
      else if !p.leftover.isEmpty then .error (.misuse (.unrecognized p.leftover))
      else if p.lacksType then .error .noNumberType
      else .ok p.chosen

end ExprFront.CommandLine
