import ExprFront.Particle
import ExprFront.Position
import ExprFront.Value

/-!
# Expressions and statements

The trees that the grammar builds.  Every node carries the position of the token that
it is anchored to, and parentheses stay in the tree as groups.
-/

namespace ExprFront

/-- An expression. -/
inductive Expr where
  /-- A number. -/
  | number (v : Value) (pos : Position)
  /-- A name. -/
  | name (s : String) (pos : Position)
  /-- An expression in parentheses. -/
  | group (inner : Expr) (pos : Position)
  /-- An operator before its operand. -/
  | unary (op : Particle) (operand : Expr) (pos : Position)
  /-- An operator between its operands. -/
  | binary (op : Particle) (left right : Expr) (pos : Position)
  /-- A choice `condition ? then : otherwise`. -/
  | ternary (condition consequent otherwise : Expr) (pos : Position)
  /-- A call: a name, and arguments between braces. -/
  | call (function : String) (arguments : List Expr) (pos : Position)
  /-- A function: the word `fn`, parameters in parentheses, and a body. -/
  | lambda (parameters : List String) (body : Expr) (pos : Position)
  /-- A list in brackets. -/
  | list (values : List Expr) (pos : Position)
  /-- A range `[start .. length ; step]`. -/
  | range (start : Value) (length : Nat) (step : Option Value) (pos : Position)
deriving Repr

/-- The position of the token that an expression is anchored to. -/
def Expr.pos : Expr → Position
  | number _ p | name _ p | group _ p | unary _ _ p | binary _ _ _ p | ternary _ _ _ p
  | call _ _ p | lambda _ _ p | list _ p | range _ _ _ p => p

/-- A statement. -/
inductive Stmt where
  /-- An assignment `name = value`. -/
  | assign (name : String) (value : Expr) (pos : Position)
  /-- An expression that stands alone. -/
  | expression (e : Expr) (pos : Position)
deriving Repr

/-- The position of the token that a statement is anchored to. -/
def Stmt.pos : Stmt → Position
  | assign _ _ p | expression _ p => p

end ExprFront
