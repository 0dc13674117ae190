import ExprFront.Buffer
import ExprFront.Expr
import ExprFront.Value.Whole

/-!
# The grammar

A program is a sequence of statements without separators.  A statement is an assignment
or an expression, and expressions have these tiers, from the loosest to the tightest:

* a choice `a ? b : c`, nesting to the right;
* five tiers of operators that associate to the left (`Tier`);
* the operators `!` and `-` before an operand;
* calls, functions, and the primary forms: numbers, names, groups, lists and ranges.

Each tier is a parser made from the parser of the next tighter one, so that the only
recursion is that of whole expressions inside expressions, in `Grammar.expression`.  It
takes fuel, one unit for each level of nesting, and so do the loops.  Since every level
and every turn of a loop takes a token, the bound `Buffer.weight` is enough fuel.

The first fault ends a parse; what was consumed and buffered by then stays so.
-/

namespace ExprFront

/-- The operators of a tier. -/
inductive Tier where
  | equality | comparison | logic | term | factor
deriving DecidableEq, Repr

/-- The operators that belong to the tier. -/
def Tier.operators : Tier → List Particle
  | equality => [.equal, .notEqual]
  | comparison => [.greaterThan, .lessThan, .greaterEqual, .lessEqual, .logicalAnd, .logicalOr]
  | logic => [.bitAnd, .bitOr]
  | term => [.plus, .minus]
  | factor => [.multiply, .divide, .modulo]

namespace Grammar

open Buffer

/-- The operators that stand before their operand. -/
def unaryOperators : List Particle := [.logicalNot, .minus]

/-- The word that starts a function. -/
def lambdaWord : String := "fn"

/-! ## Faults and single tokens -/

/-- Ends the parse with a fault.  The name of the source is filled in later. -/
def fail {α : Type} (fault : ParseFault) : Parser α := throw (.grammatical ⟨fault, anonymous⟩)

/-- The position of the cursor, after everything that has been looked at. -/
def cursorPos : Parser Position := do
  return (← get).cursor.pos

/-- The end of the fuel. -/
def stuck {α : Type} : Parser α := do
  fail (.noProgress (← cursorPos))

/-- Consumes the next token; there has to be one. -/
def advance (expected : String) : Parser Token := do
  match ← pop with
  | some t => return t
  | none => fail (.unexpectedEnd expected (← cursorPos))

/-- Is the token at `offset` the particle? -/
def check (p : Particle) (offset : Int) : Parser Bool := hasKind (.particle p) offset

/-- A particle in single quotes. -/
def quotedSymbol (p : Particle) : String := "'" ++ p.symbol ++ "'"

/-- Consumes the next token if it is the particle. -/
def accept? (p : Particle) : Parser (Option Token) := do
  if ← check p 0 then
    let t ← advance (quotedSymbol p)
    return some t
  else
    return none

/-- Consumes the next token if it is one of the operators. -/
def operator? (ops : List Particle) : Parser (Option Particle) := do
  match (← peek 0).map Token.lexeme with
  | some (.particle p) =>
    if p ∈ ops then
      let _ ← advance "an operator"
      return some p
    else
      return none
  | _ => return none

/-- The fault of a missing closing delimiter: at the token found instead, or at the last
token of the source. -/
def unclosed (message : String) : Parser Unit := do
  match ← pop with
  | some t => fail (.unclosed message t.pos (some t))
  | none =>
    let b ← get
    fail (.unclosed message (b.lastPos.getD b.cursor.pos) none)

/-- Consumes the closing delimiter. -/
def expectClosing (p : Particle) (message : String) : Parser Unit := do
  match ← accept? p with
  | some _ => return ()
  | none => unclosed message

/-! ## Items between delimiters -/

/-- An item, where a comma is no item. -/
def dueItem {α : Type} (item : Parser α) : Parser α := do
  match ← accept? .comma with
  | some comma => fail (.unexpectedComma comma false)
  | none => item

/-- The items that follow an item, each after one comma, up to and including the
closing delimiter. -/
def moreItems {α : Type} (closing : Particle) (item : Parser α) : (fuel : Nat) → Parser (List α)
  | 0 => stuck
  | fuel + 1 => do
    match ← accept? closing with
    | some _ => return []
    | none =>
      match ← accept? .comma with
      | some comma =>
        if ← check closing 0 then
          fail (.unexpectedComma comma true)
        else
          let x ← dueItem item
          let xs ← moreItems closing item fuel
          return x :: xs
      | none =>
        let found ← advance ("a comma or " ++ quotedSymbol closing)
        fail (.unexpectedToken "a comma" found)

/-- Items separated by single commas, up to and including the closing delimiter. -/
def delimited {α : Type} (fuel : Nat) (closing : Particle) (item : Parser α) :
    Parser (List α) := do
  match ← accept? closing with
  | some _ => return []
  | none =>
    let x ← dueItem item
    let xs ← moreItems closing item fuel
    return x :: xs

/-- The name of a parameter. -/
def parameter : Parser String := do
  let t ← advance "a parameter"
  match t.lexeme with
  | .name s => return s
  | _ => fail (.unexpectedToken "a parameter" t)

/-! ## Ranges -/

/-- A number and its token. -/
def number (expected : String) : Parser (Value × Token) := do
  let t ← advance expected
  match t.lexeme with
  | .number v => return (v, t)
  | _ => fail (.unexpectedToken expected t)

/-- The answer to a question about a value; a breakdown is no verdict on the source. -/
def answer {α : Type} : Except ConversionError α → Parser α
  | .ok a => return a
  | .error e => throw (.breakdown e)

/-- The length of a range: a number that is whole. -/
def rangeLength : Parser Value := do
  let (v, t) ← number "a range length"
  if ← answer v.isWhole then
    return v
  else
    fail (.invalidRange "Range length must be a non-negative integer" t)

/-- The step of a range, if there is one. -/
def rangeStep : Parser (Option Value) := do
  match ← accept? .semicolon with
  | some _ =>
    let (v, _) ← number "a range step"
    return v.present?
  | none => return none

/-- Do a number and the range sign come next? -/
def atRange : Parser Bool := do
  if ← hasKind .integer 0 then check .range 1 else return false

/-- A range after its opening bracket at `pos`.  Its length is read as an integer only
when the range is closed. -/
def range (pos : Position) : Parser Expr := do
  let (start, _) ← number "a range start"
  let _ ← advance "'..'"
  let length ← rangeLength
  let step ← rangeStep
  expectClosing .rightBracket "Expected a closing bracket"
  let n ← answer length.integerPart
  return .range start n.toNat step pos

/-! ## Expressions -/

/-- A call of the function `s`. -/
def call (fuel : Nat) (expr : Parser Expr) (s : String) : Parser Expr := do
  let t ← advance "a function name"
  let _ ← advance (quotedSymbol .leftBrace)
  let arguments ← delimited fuel .rightBrace expr
  return .call s arguments t.pos

/-- A function. -/
def lambda (fuel : Nat) (expr : Parser Expr) : Parser Expr := do
  let t ← advance ("'" ++ lambdaWord ++ "'")
  let _ ← advance (quotedSymbol .leftParen)
  let parameters ← delimited fuel .rightParen parameter
  let body ← expr
  return .lambda parameters body t.pos

/-- Does a function start with the name `s` that comes next? -/
def atLambda (s : String) : Parser Bool := do
  if s = lambdaWord then check .leftParen 1 else return false

/-- What starts with the name `s`: a call, a function, or the name alone. -/
def named (fuel : Nat) (expr : Parser Expr) (s : String) : Parser Expr := do
  if ← check .leftBrace 1 then
    call fuel expr s
  else if ← atLambda s then
    lambda fuel expr
  else
    let t ← advance "an identifier"
    return .name s t.pos

/-- A list or a range. -/
def aggregate (fuel : Nat) (expr : Parser Expr) : Parser Expr := do
  let t ← advance "'['"
  if ← atRange then
    range t.pos
  else
    let values ← delimited fuel .rightBracket expr
    return .list values t.pos

/-- An expression in parentheses. -/
def group (expr : Parser Expr) : Parser Expr := do
  let t ← advance "'('"
  let inner ← expr
  expectClosing .rightParen "Expected a closing parenthesis after expression"
  return .group inner t.pos

/-- The tightest tier: calls, functions and primary forms. -/
def primary (fuel : Nat) (expr : Parser Expr) : Parser Expr := do
  let next ← peek 0
  match next.map Token.lexeme with
  | some (.number v) =>
    let t ← advance "a number"
    return .number v t.pos
  | some (.name s) => named fuel expr s
  | some (.particle .leftParen) => group expr
  | some (.particle .leftBracket) => aggregate fuel expr
  | _ => fail (.invalidExpression invalidExpressionMessage (← cursorPos) next)

/-- Operators before an operand; a node is anchored to its operand. -/
def unary (operand : Parser Expr) : (fuel : Nat) → Parser Expr
  | 0 => stuck
  | fuel + 1 => do
    match ← operator? unaryOperators with
    | some op =>
      let e ← unary operand fuel
      return .unary op e e.pos
    | none => operand

/-- The operators of a tier that follow an operand, each with its right operand. -/
def chain (ops : List Particle) (operand : Parser Expr) : (fuel : Nat) → Expr → Parser Expr
  | 0, _ => stuck
  | fuel + 1, left => do
    match ← operator? ops with
    | some op =>
      let right ← operand
      chain ops operand fuel (.binary op left right left.pos)
    | none => return left

/-- One tier of operators that associate to the left. -/
def tier (fuel : Nat) (t : Tier) (operand : Parser Expr) : Parser Expr := do
  let left ← operand
  chain t.operators operand fuel left

/-- All tiers of operators, from the loosest to the tightest. -/
def operation (fuel : Nat) (operand : Parser Expr) : Parser Expr :=
  tier fuel .equality <| tier fuel .comparison <| tier fuel .logic <| tier fuel .term <|
    tier fuel .factor operand

/-- A choice, or its condition alone. -/
def ternary (condition branch : Parser Expr) : Parser Expr := do
  let c ← condition
  match ← accept? .question with
  | some _ =>
    let t ← branch
    match ← accept? .colon with
    | some _ =>
      let e ← branch
      return .ternary c t e c.pos
    | none => fail (.missingToken "Expected a colon operator" t.pos (← peek 0))
  | none => return c

/-- An expression, nested at most as deep as the fuel allows. -/
def expression : (fuel : Nat) → Parser Expr
  | 0 => stuck
  | fuel + 1 =>
    ternary
      (operation (fuel + 1) (unary (primary (fuel + 1) (expression fuel)) (fuel + 1)))
      (expression fuel)

/-! ## Statements -/

/-- An expression with fuel for everything that is left to read. -/
def wholeExpression : Parser Expr := do
  expression ((← get).weight + 1)

/-- An assignment.  The token after the target is not looked at: the caller has seen
that it is the assignment sign. -/
def assignment : Parser Stmt := do
  let target ← advance "an identifier"
  match target.lexeme with
  | .name s =>
    let _ ← advance "'='"
    let value ← wholeExpression
    return .assign s value target.pos
  | _ => fail (.invalidTarget target)

/-- Do a name and the assignment sign come next? -/
def atAssignment : Parser Bool := do
  if ← hasKind .identifier 0 then check .assign 1 else return false

/-- A statement whose faults do not name the source. -/
def bareStatement : Parser Stmt := do
  if ← atAssignment then
    assignment
  else
    let e ← wholeExpression
    return .expression e e.pos

/-- A statement; its faults carry the name of the source. -/
def statement : Parser Stmt := fun b =>
  match bareStatement b with
  | .ok s b' => .ok s b'
  | .error e b' => .error (e.inFile b.cursor.filename) b'

/-- Statements to the end of input. -/
def statements : (fuel : Nat) → Parser (List Stmt)
  | 0 => stuck
  | fuel + 1 => do
    if ← isEnd then
      return []
    else
      let s ← statement
      let ss ← statements fuel
      return s :: ss

/-- The rest of the source as a program. -/
def program : Parser (List Stmt) := do
  statements ((← get).weight + 1)

end Grammar

end ExprFront
