import ExprFront.Number.Shortest

/-!
# How binary numbers are written

The shortest digits of a number are laid out either positionally or in scientific
form, with one digit before the point and a signed exponent of at least two
digits.  A `Layout` says when the scientific form is used and whether a whole
number keeps a point and a zero.
-/

namespace ExprFront.Number

/-- The decisions of a written form. -/
structure Layout where
  /-- Is a number with this value and this leading power of ten written in
  scientific form? -/
  scientific : Rat → Int → Bool
  /-- Does a whole number in positional form end in `.0`? -/
  keepsPoint : Bool

namespace Layout

/-- Plain floating point: scientific below `10 ^ -4` and from `10 ^ 16` on. -/
def plain : Layout := ⟨fun _ k => k < -4 || 16 ≤ k, true⟩

/-- The parts of complex numbers: as `plain`, and a whole number has no point. -/
def part : Layout := { plain with keepsPoint := false }

/-- Fixed-width numbers: scientific where the exact magnitude is below `10 ^ -4`
or reaches the limit. -/
def upTo (limit : Rat) : Layout := ⟨fun x _ => x < mkRat 1 10000 || limit ≤ x, true⟩

/-- A signed exponent of at least two digits. -/
def exponentText (k : Int) : List Char :=
  let ds := digitsOf k.natAbs
  (if k < 0 then '-' else '+') :: (if ds.length < 2 then '0' :: ds else ds)

/-- One digit, a point and the others, and the exponent. -/
def scientificText (ds : List Char) (k : Int) : List Char :=
  ds.take 1 ++ (if ds.length ≤ 1 then [] else '.' :: ds.drop 1) ++ 'e' :: exponentText k

/-- All places from the leading digit or the ones to the last digit or the ones. -/
def positionalText (keepsPoint : Bool) (ds : List Char) (k : Int) : List Char :=
  if k < 0 then '0' :: '.' :: List.replicate (-k - 1).toNat '0' ++ ds
  else
    let places := k.toNat + 1
    let whole := ds.take places ++ List.replicate (places - ds.length) '0'
    match ds.drop places with
    | [] => if keepsPoint then whole ++ ['.', '0'] else whole
    | fraction => whole ++ '.' :: fraction

/-- The text of a number of a format. -/
def write (l : Layout) (f : BinaryFormat) : Binary → String
  | .nan => "nan"
  | .infinite negative => if negative then "-inf" else "inf"
  | .finite negative m e =>
    let d := shortestDigits f m e
    let body :=
      if m ≠ 0 ∧ l.scientific (dyadic m e) d.leading then scientificText d.digits d.leading
      else positionalText l.keepsPoint d.digits d.leading
    String.ofList (if negative then '-' :: body else body)

end Layout

end ExprFront.Number
