/-!
# Parenthesised notation

A nested list of words, written with parentheses around each list and one space between
its members.
-/

namespace ExprFront

/-- A word or a list. -/
inductive Sexp where
  | atom (s : String)
  | list (members : List Sexp)
deriving Repr

namespace Sexp

mutual

/-- The written form. -/
def render : Sexp → String
  | atom s => s
  | list members => "(" ++ String.intercalate " " (renderEach members) ++ ")"

/-- The written forms of the members of a list. -/
def renderEach : List Sexp → List String
  | [] => []
  | x :: xs => x.render :: renderEach xs

end

end Sexp

end ExprFront
