/-!
# Source positions

A position is a row and a column, both counted from zero in code points.
`Position.advance` moves a position over a fragment of source text: a fragment
that is exactly one line break starts the next row, and any other fragment moves
the column by its length.  No fragment that the scanner takes holds a line break
besides the lone line break itself.
-/

namespace ExprFront

/-- A row and a column, counted from zero. -/
structure Position where
  row : Int
  col : Int
deriving DecidableEq, Repr, Inhabited

namespace Position

/-- The first position of a source. -/
def origin : Position := ⟨0, 0⟩

/-- The position after a fragment that begins at `p`. -/
def advance (p : Position) (fragment : List Char) : Position :=
  if fragment = ['\n'] then ⟨p.row + 1, 0⟩ else ⟨p.row, p.col + fragment.length⟩

/-- The position as diagnostics and tokens show it: `row:col`. -/
def text (p : Position) : String := toString p.row ++ ":" ++ toString p.col

/-- The position with its type's name around it. -/
def constructorText (p : Position) : String :=
  "Position(" ++ toString p.row ++ ", " ++ toString p.col ++ ")"

end Position

end ExprFront
