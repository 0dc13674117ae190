import ExprFront.Expr
import ExprFront.Sexp
import ExprFront.Value.Sameness

/-!
# Trees of nodes

The uniform view of programs: a node has a label with everything that is no node, a
position, and children in source order.  Trees put together by hand need not be
programs: a statement may stand inside an expression, an operator may be of any kind,
and some labels belong to no construct of the language at all.

* `Tree.toSexp` writes a tree in parenthesised notation; `Tree.format` refuses a tree
  with a label that has no notation, or with an integer too long to be written.
* `Tree.compare` compares two trees: labels, values as numbers, and positions.
* `Tree.topmost` lists the nodes of given classes that lie below no other such node.
-/

namespace ExprFront

/-- What a node is, apart from its position and children. -/
inductive Label where
  | number (v : Value)
  | name (s : String)
  | group
  | unary (op : Kind)
  | binary (op : Kind)
  | ternary
  | call (function : String)
  | lambda (parameters : List String)
  | list
  | range (start : Value) (length : Int) (step : Option Value)
  | assign (name : String)
  | expression
  /-- A whole program; it is no node itself. -/
  | program
  /-- A node without a construct behind it. -/
  | bare (className : String)
  /-- Something that is no node. -/
  | foreign
deriving DecidableEq, Repr

namespace Label

/-- The name of the class of nodes with the label. -/
def className : Label → String
  | number _ => "Number"
  | name _ => "Identifier"
  | group => "Group"
  | unary _ => "UnaryOp"
  | binary _ => "BinaryOp"
  | ternary => "TernaryOp"
  | call _ => "Call"
  | lambda _ => "Lambda"
  | list => "ListLiteral"
  | range .. => "RangeLiteral"
  | assign _ => "Assign"
  | expression => "ExpressionStatement"
  | program => "AST"
  | bare c => c
  | foreign => "object"

/-- Is a thing with the label a node? -/
def isNode : Label → Bool
  | program | foreign => false
  | _ => true

/-- Does the label belong to a construct of the language? -/
def isConstruct : Label → Bool
  | program | foreign | bare _ => false
  | _ => true

/-- Are the labels of two nodes equal?  A node without a construct equals no other. -/
def compare : Label → Label → Comparison
  | number v, number w => v.compare w
  | range s n t, range s' n' t' =>
    (s.compare s').andThen <| (Comparison.ofBool (n == n')).andThen <|
      match t, t' with
      | none, none => .equal
      | some v, some w => v.compare w
      | _, _ => .different
  | bare _, _ | _, bare _ | foreign, _ | _, foreign => .different
  | l, m => .ofBool (l == m)

/-- The node in parenthesised notation, from those of its children. -/
def toSexp (children : List Sexp) : Label → Sexp
  | number v => .atom v.text
  | name s => .atom s
  | group => .list (.atom "group" :: children)
  | unary op | binary op => .list (.atom op.symbol :: children)
  | ternary => .list (.atom "?" :: children)
  | call f => .list (.atom "call" :: .atom f :: children)
  | lambda ps => .list (.atom "fn" :: .list (ps.map .atom) :: children)
  | list => .list (.atom "list" :: children)
  | range start length step =>
    .list ([.atom "range", .atom start.widened.text, .atom (toString length)]
      ++ step.toList.map fun v => .atom v.widened.text)
  | assign s => .list (.atom "=" :: .atom s :: children)
  | expression | program | bare _ | foreign => children.headD (.list [])

end Label

/-- Why a tree cannot be written. -/
inductive FormatError where
  /-- A label has no notation. -/
  | noNotation (className : String)
  /-- An integer has too many digits. -/
  | overlong
deriving DecidableEq, Repr

/-- The text of the failure. -/
def FormatError.message : FormatError → String
  | noNotation c => "Cannot format " ++ c
  | overlong =>
    "Exceeds the limit (" ++ toString maxDigits
      ++ " digits) for integer string conversion; use sys.set_int_max_str_digits() to increase the limit"

/-- What stands in the way of writing a label. -/
def Label.obstacle? : Label → Option FormatError
  | number v => if v.isPrintable then none else some .overlong
  | range start length step =>
    if start.isPrintable && Value.shortInteger length && step.all Value.isPrintable then none
    else some .overlong
  | l => if l.isConstruct then none else some (.noNotation l.className)

/-- A node with its position and its children. -/
inductive Tree where
  | node (label : Label) (pos : Position) (children : List Tree)
deriving Repr

namespace Tree

/-- The label of the root. -/
def label : Tree → Label
  | node l _ _ => l

/-- The position of the root. -/
def pos : Tree → Position
  | node _ p _ => p

/-- The nodes right below the root, in source order. -/
def children : Tree → List Tree
  | node _ _ cs => cs.filter (·.label.isNode)

/-- The name of the class of the root. -/
def className (t : Tree) : String := t.label.className

mutual

/-- The tree in parenthesised notation. -/
def toSexp : Tree → Sexp
  | node l _ cs => l.toSexp (toSexps cs)

/-- The notation of each of several trees. -/
def toSexps : List Tree → List Sexp
  | [] => []
  | t :: ts => t.toSexp :: toSexps ts

end

mutual

/-- The first obstacle to writing the tree, from the root to the leaves and from left to
right. -/
def obstacle? : Tree → Option FormatError
  | node l _ cs => l.obstacle?.or (anyObstacle? cs)

/-- The first obstacle in several trees. -/
def anyObstacle? : List Tree → Option FormatError
  | [] => none
  | t :: ts => t.obstacle?.or (anyObstacle? ts)

end

/-- The written form of a tree. -/
def format (t : Tree) : Except FormatError String :=
  match t.obstacle? with
  | some e => .error e
  | none => .ok t.toSexp.render

mutual

/-- Compares two trees: labels first, then children, and positions last.  A program has no
position. -/
def compare : Tree → Tree → Comparison
  | node l p cs, node l' p' cs' =>
    (l.compare l').andThen <| (compareEach cs cs').andThen (.ofBool (!l.isNode || p == p'))

/-- Compares two rows of trees one by one, and their lengths last. -/
def compareEach : List Tree → List Tree → Comparison
  | [], [] => .equal
  | t :: ts, u :: us => (t.compare u).andThen (compareEach ts us)
  | _, _ => .different

end

mutual

/-- The topmost nodes of the given classes: those that lie below no other, in source
order. -/
def topmost (classes : List String) : Tree → List Tree
  | node l p cs =>
    if l.className ∈ classes then [node l p cs] else topmostOfEach classes cs

/-- The topmost nodes of several trees; what is no node is passed over. -/
def topmostOfEach (classes : List String) : List Tree → List Tree
  | [] => []
  | t :: ts =>
    (if t.label.isNode then t.topmost classes else []) ++ topmostOfEach classes ts

end

/-- Visits trees one after the other with a handler for the given classes.  A handler
records its node, does not go below it, and answers with the number of nodes recorded so
far; `recorded` counts those of earlier trees.  For each tree: the nodes it adds, and the
answer if the root itself is handled. -/
def visitEach (classes : List String) (recorded : Nat) : List Tree → List (List Tree × Option Nat)
  | [] => []
  | t :: ts =>
    let found := t.topmost classes
    (found, if t.className ∈ classes then some (recorded + 1) else none)
      :: visitEach classes (recorded + found.length) ts

end Tree

mutual

/-- The uniform view of an expression. -/
def Expr.toTree : Expr → Tree
  | .number v p => .node (.number v) p []
  | .name s p => .node (.name s) p []
  | .group e p => .node .group p [e.toTree]
  | .unary op e p => .node (.unary (.particle op)) p [e.toTree]
  | .binary op l r p => .node (.binary (.particle op)) p [l.toTree, r.toTree]
  | .ternary c t e p => .node .ternary p [c.toTree, t.toTree, e.toTree]
  | .call f args p => .node (.call f) p (Expr.toTrees args)
  | .lambda ps body p => .node (.lambda ps) p [body.toTree]
  | .list es p => .node .list p (Expr.toTrees es)
  | .range start length step p => .node (.range start length step) p []

/-- The uniform view of several expressions. -/
def Expr.toTrees : List Expr → List Tree
  | [] => []
  | e :: es => e.toTree :: Expr.toTrees es

end

/-- The uniform view of a statement. -/
def Stmt.toTree : Stmt → Tree
  | .assign s e p => .node (.assign s) p [e.toTree]
  | .expression e p => .node .expression p [e.toTree]

/-- A program as one tree. -/
def Tree.ofProgram (ss : List Stmt) : Tree := .node .program .origin (ss.map Stmt.toTree)

/-- A statement in parenthesised notation. -/
def Stmt.text (s : Stmt) : String := s.toTree.toSexp.render

/-- The written form of a statement, if its integers are short enough. -/
def Stmt.format (s : Stmt) : Except FormatError String := s.toTree.format

end ExprFront
