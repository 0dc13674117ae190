import ExprFront.Grammar
import ExprFront.NumberType

/-!
# Programs from sources

What a caller of the front end works with: a `Config` chooses the number type, the name
of the source in diagnostics and the reach of the lookahead; `Session` is a parser over
one source, driven step by step; `parseProgram` does the whole source at once.
-/

namespace ExprFront

/-- Settings of the front end. -/
structure Config where
  convert : Converter
  filename : String
  maxLookahead : Int

/-- The least reach of the lookahead: the grammar looks at most one token past the read
point. -/
def minLookahead : Int := 2

/-- Why settings are refused. -/
inductive ConfigError where
  | numberType (e : NumberTypeError)
  | shallowLookahead
deriving DecidableEq, Repr

/-- The text of the failure. -/
def ConfigError.message : ConfigError → String
  | numberType e => e.message
  | shallowLookahead => "max_lookahead must be at least " ++ toString minLookahead

namespace Config

/-- The reach of the lookahead unless another is set. -/
def standardLookahead : Int := 8

/-- Settings from their parts; the number type is checked first. -/
def make (numberType : NumberType) (filename : String) (maxLookahead : Int) :
    Except ConfigError Config :=
  match numberType.resolve with
  | .error e => .error (.numberType e)
  | .ok convert =>
    if maxLookahead < minLookahead then .error .shallowLookahead
    else .ok ⟨convert, filename, maxLookahead⟩

/-- The settings that hold unless others are chosen. -/
def standard : Config := ⟨Converter.float, anonymous, standardLookahead⟩

/-- The settings with another number type, if one is given. -/
def withNumberType (c : Config) : Option NumberType → Except NumberTypeError Config
  | none => .ok c
  | some t => t.resolve.map fun convert => { c with convert := convert }

/-- A parser at the start of a source. -/
def session (c : Config) (source : String) : Buffer :=
  .ofCursor (.start source c.filename c.convert) c.maxLookahead

end Config

/-- The statements of a source. -/
def parseProgram (c : Config) (source : String) : Except Failure (List Stmt) :=
  match Grammar.program (c.session source) with
  | .ok ss _ => .ok ss
  | .error e _ => .error e

/-- An index that no statement has. -/
structure NoSuchStatement where
  index : Int
deriving DecidableEq, Repr

/-- The text of the failure. -/
def NoSuchStatement.message (e : NoSuchStatement) : String := indexMessage "tuple" e.index

/-- The statement at an index; a negative one counts from the end. -/
def statementAt (ss : List Stmt) (i : Int) : Except NoSuchStatement Stmt :=
  let found := if 0 ≤ i then ss[i.toNat]? else
    if 0 ≤ ss.length + i then ss[(ss.length + i).toNat]? else none
  match found with
  | some s => .ok s
  | none => .error ⟨i⟩

namespace Session

/-- What a parser can be asked to do. -/
inductive Step where
  | statement
  | isEnd
  | program
  /-- An assignment, without looking whether one comes next. -/
  | assignment
deriving DecidableEq, Repr

/-- What a step answers. -/
inductive Answer where
  | statement (s : Stmt)
  | flag (b : Bool)
  | program (ss : List Stmt)

/-- One step. -/
def step (b : Buffer) (s : Step) : Outcome Buffer Answer :=
  let run : Parser Answer := match s with
    | .statement => return .statement (← Grammar.statement)
    | .isEnd => return .flag (← Buffer.isEnd)
    | .program => return .program (← Grammar.program)
    | .assignment => return .statement (← Grammar.assignment)
  run b

end Session

end ExprFront
