/-!
# Sets of code points as ranges

A set of code points is a rising list of closed ranges.  The tables of this
folder are such lists; `Ranges.contains` looks a code point up and stops at the
first range that begins above it, so that the frequent low code points are
found at once.

The tables follow version 14.0 of the Unicode character database.
-/

namespace ExprFront.Text

/-- Closed ranges of code points, in rising order. -/
abbrev Ranges := List (Nat × Nat)

/-- Is `n` in one of the ranges? -/
def Ranges.contains : Ranges → Nat → Bool
  | [], _ => false
  | (first, last) :: rest, n =>
    if n < first then false else if n ≤ last then true else Ranges.contains rest n

/-- A range that holds `n`, for a lookup that also needs the range's start. -/
def Ranges.find? : Ranges → Nat → Option (Nat × Nat)
  | [], _ => none
  | (first, last) :: rest, n =>
    if n < first then none else if n ≤ last then some (first, last) else Ranges.find? rest n

end ExprFront.Text
