import ExprFront.Text.Ranges

/-!
# Blank characters

The white space of the Unicode database, and the smaller set that may pad a
numeral.
-/

namespace ExprFront.Text

/-- Code points of white space. -/
def blanks : Ranges := [
    (0x9, 0xD), (0x1C, 0x20), (0x85, 0x85), (0xA0, 0xA0), (0x1680, 0x1680), (0x2000, 0x200A),
    (0x2028, 0x2029), (0x202F, 0x202F), (0x205F, 0x205F), (0x3000, 0x3000)]

/-- Is the character white space? -/
def isBlank (c : Char) : Bool := blanks.contains c.toNat

/-- May the character stand before or after an integer or a floating point
numeral?  That is all white space but the four information separators. -/
def isPadding (c : Char) : Bool := isBlank c && !(0x1C ≤ c.toNat && c.toNat ≤ 0x1F)

/-- The text without the characters of a class at its two ends. -/
def trim (p : Char → Bool) (cs : List Char) : List Char :=
  ((cs.dropWhile p).reverse.dropWhile p).reverse

end ExprFront.Text
