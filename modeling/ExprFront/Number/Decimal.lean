import ExprFront.Number.Numeral

/-!
# Exact decimals

A decimal keeps the digits it was written with: a sign, a coefficient and a power
of ten, so that `1.50` and `1.5` are equal numbers with different texts.  Infinities
and quiet or signaling NaNs, with their payload, are written out as words.
-/

namespace ExprFront.Number

/-- An exact decimal.  A finite one is `coefficient * 10 ^ exponent` under its
sign. -/
inductive Decimal where
  | finite (negative : Bool) (coefficient : Nat) (exponent : Int)
  | infinite (negative : Bool)
  | nan (negative signaling : Bool) (payload : Nat)
deriving DecidableEq, Repr

namespace Decimal

/-- The greatest power of ten of a leading digit. -/
def greatestLeading : Int := 999999999999999999

/-- The least power of ten of a last digit. -/
def leastExponent : Int := -1999999999999999997

/-- How reading a decimal can fail. -/
inductive Fault where
  | malformed
  | outOfBounds
deriving DecidableEq, Repr

/-- Is `word` spelled by `cs`, letters of either case? -/
def spells (word : String) (cs : List Char) : Bool := cs.map Char.toLower == word.toList

/-- A signless word: an infinity, or a NaN with its payload. -/
def word? (negative : Bool) (cs : List Char) : Option Decimal :=
  if spells "inf" cs || spells "infinity" cs then some (.infinite negative)
  else if spells "nan" (cs.take 3) && (cs.drop 3).all Char.isDigit then
    some (.nan negative false (digitsValue (cs.drop 3)))
  else if spells "snan" (cs.take 4) && (cs.drop 4).all Char.isDigit then
    some (.nan negative true (digitsValue (cs.drop 4)))
  else none

/-- The decimal of a numeral, digit by digit. -/
def ofNumeral (n : Numeral) : Except Fault Decimal :=
  if greatestLeading < n.scale + ((digitsOf n.coefficient).length - 1 : Int)
      ∨ n.scale < leastExponent then .error .outOfBounds
  else .ok (.finite n.negative n.coefficient n.scale)

/-- Reads a decimal.  White space around it and all underscores are ignored, and
digits may be of any script. -/
def read (s : String) : Except Fault Decimal :=
  let cs := ((Text.trim Text.isBlank s.toList).filter (· ≠ '_')).map Text.asciiDigit
  match Numeral.read? cs with
  | some n => ofNumeral n
  | none =>
    match word? (takeSign cs).1 (takeSign cs).2 with
    | some d => .ok d
    | none => .error .malformed

/-- The digits with a point `place` digits from their left. -/
def pointed (ds : List Char) (place : Int) : List Char :=
  if place ≤ 0 then '0' :: '.' :: List.replicate (-place).toNat '0' ++ ds
  else if ds.length ≤ place then ds ++ List.replicate (place - ds.length).toNat '0'
  else ds.take place.toNat ++ '.' :: ds.drop place.toNat

/-- A signed exponent without padding. -/
def exponentText (k : Int) : List Char :=
  'E' :: (if k < 0 then '-' else '+') :: digitsOf k.natAbs

/-- The text of an unsigned finite decimal.  It is positional if no zeros have to be
added on the right and at most five between the point and the digits. -/
def magnitudeText (coefficient : Nat) (exponent : Int) : List Char :=
  let ds := digitsOf coefficient
  let left : Int := exponent + ds.length
  if exponent ≤ 0 ∧ -6 < left then pointed ds left
  else pointed ds 1 ++ (if left = 1 then [] else exponentText (left - 1))

/-- The text of a decimal. -/
def text (d : Decimal) : String :=
  let signed (negative : Bool) (cs : List Char) := String.ofList (if negative then '-' :: cs else cs)
  match d with
  | .finite negative m e => signed negative (magnitudeText m e)
  | .infinite negative => signed negative "Infinity".toList
  | .nan negative signaling payload =>
    signed negative ((if signaling then "sNaN" else "NaN").toList
      ++ (if payload = 0 then [] else digitsOf payload))

/-- The rational value of a finite decimal. -/
def toRat? : Decimal → Option Rat
  | .finite negative m e =>
    let x := mkRat (m * 10 ^ e.toNat) (10 ^ (-e).toNat)
    some (if negative then -x else x)
  | _ => none

end Decimal

end ExprFront.Number
