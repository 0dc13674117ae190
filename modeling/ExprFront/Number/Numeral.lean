import ExprFront.Text.Blank
import ExprFront.Text.DecimalDigits

/-!
# Written numerals

What the number types share in reading text: digits with single underscores
between them, an optional sign, a fraction and a decimal exponent.

`ungroup` checks and drops the underscores, `Numeral.take?` reads the longest
numeral at the front of a text, and `Numeral.read?` reads a text that is a numeral
from end to end.  A numeral denotes `coefficient * 10 ^ scale` under its sign.
-/

namespace ExprFront.Number

-- Powers of naturals stay those of the core library where a module brings more instances.
attribute [instance (2000)] instPowNat

/-- The number that a run of digits denotes. -/
def digitsValue (digits : List Char) : Nat := Nat.ofDigitChars 10 digits 0

/-- The decimal digits of a number, without superfluous zeros. -/
def digitsOf (n : Nat) : List Char := Nat.toDigits 10 n

/-- Does every underscore stand between two digits?  `afterDigit` tells whether a
digit comes right before the text. -/
def wellGrouped (afterDigit : Bool) : List Char → Bool
  | [] => true
  | ['_'] => false
  | '_' :: c :: rest => afterDigit && c.isDigit && wellGrouped true rest
  | c :: rest => wellGrouped c.isDigit rest

/-- The text without its underscores, if each of them stands between two digits. -/
def ungroup (cs : List Char) : Option (List Char) :=
  if wellGrouped false cs then some (cs.filter (· ≠ '_')) else none

/-- A written decimal exponent: its sign and its digits, of which there are none if no
exponent is written. -/
structure Exponent where
  negative : Bool
  digits : List Char
deriving Repr, DecidableEq

/-- The number that a written exponent denotes. -/
def Exponent.value (e : Exponent) : Int :=
  if e.negative then -(digitsValue e.digits : Int) else digitsValue e.digits

/-- A numeral: sign, digits before and after the point, and written exponent. -/
structure Numeral where
  negative : Bool
  whole : List Char
  fraction : List Char
  written : Exponent
deriving Repr, DecidableEq

namespace Numeral

/-- The decimal exponent. -/
def exponent (n : Numeral) : Int := n.written.value

/-- All digits read as one number. -/
def coefficient (n : Numeral) : Nat := digitsValue (n.whole ++ n.fraction)

/-- The power of ten that the coefficient is multiplied with. -/
def scale (n : Numeral) : Int := n.exponent - n.fraction.length

end Numeral

/-- Takes a sign off the front: is it a minus, and what follows. -/
def takeSign : List Char → Bool × List Char
  | '-' :: rest => (true, rest)
  | '+' :: rest => (false, rest)
  | rest => (false, rest)

/-- Takes a point and the digits after it. -/
def takeFraction : List Char → List Char × List Char
  | '.' :: rest => (rest.takeWhile Char.isDigit, rest.dropWhile Char.isDigit)
  | rest => ([], rest)

/-- Takes an exponent mark with its digits; a mark without digits stays. -/
def takeExponent (cs : List Char) : Exponent × List Char :=
  match cs with
  | c :: rest =>
    if c = 'e' ∨ c = 'E' then
      let (negative, digits) := takeSign rest
      if (digits.takeWhile Char.isDigit).isEmpty then (⟨false, []⟩, cs)
      else (⟨negative, digits.takeWhile Char.isDigit⟩, digits.dropWhile Char.isDigit)
    else (⟨false, []⟩, cs)
  | [] => (⟨false, []⟩, [])

/-- The longest numeral at the front of a text and what follows it. -/
def Numeral.take? (cs : List Char) : Option (Numeral × List Char) :=
  let (negative, body) := takeSign cs
  let whole := body.takeWhile Char.isDigit
  let (fraction, tail) := takeFraction (body.dropWhile Char.isDigit)
  if whole.isEmpty && fraction.isEmpty then none
  else
    let (exponent, rest) := takeExponent tail
    some (⟨negative, whole, fraction, exponent⟩, rest)

/-- A text that is one numeral from end to end. -/
def Numeral.read? (cs : List Char) : Option Numeral :=
  match Numeral.take? cs with
  | some (n, []) => some n
  | _ => none

end ExprFront.Number
