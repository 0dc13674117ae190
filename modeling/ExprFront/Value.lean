import ExprFront.Number.ComplexNumber
import ExprFront.Number.Decimal
import ExprFront.Text.Quoted

/-!
# Values of numerals

A converter turns the text of a numeral into a `Value`.  Most values are numbers:
integers of any size, integers and floating point numbers of a fixed width, plain
floating point numbers, exact decimals and fractions.  A converter supplied from
outside may also give texts, truth values, complex numbers or nothing.

* `Value.text` is the value as trees show it, `Value.shown` as token dumps do.
* `Value.toRat?` is the number that a value denotes, if it denotes one.
* `Value.isPrintable` tells whether the integers in a value are short enough to be
  written: no integer of more than `maxDigits` digits is.
-/

namespace ExprFront

open Number

/-- Width of a fixed-width integer. -/
inductive Width where
  | w8 | w16 | w32 | w64
deriving DecidableEq, Repr

/-- The number of bits. -/
def Width.bits : Width → Nat
  | .w8 => 8
  | .w16 => 16
  | .w32 => 32
  | .w64 => 64

/-- A fixed-width integer type. -/
structure IntType where
  signed : Bool
  width : Width
deriving DecidableEq, Repr

namespace IntType

/-- The name of the type, such as `int8` or `uint64`. -/
def name (t : IntType) : String :=
  (if t.signed then "int" else "uint") ++ toString t.width.bits

/-- The least number of the type. -/
def least (t : IntType) : Int := if t.signed then -2 ^ (t.width.bits - 1) else 0

/-- The greatest number of the type. -/
def greatest (t : IntType) : Int :=
  if t.signed then 2 ^ (t.width.bits - 1) - 1 else 2 ^ t.width.bits - 1

end IntType

/-- A fixed-width floating point type. -/
inductive FloatType where
  | float16 | float32 | float64
deriving DecidableEq, Repr

namespace FloatType

/-- The name of the type. -/
def name : FloatType → String
  | .float16 => "float16"
  | .float32 => "float32"
  | .float64 => "float64"

/-- The format of the type's numbers. -/
def format : FloatType → BinaryFormat
  | .float16 => half
  | .float32 => single
  | .float64 => double

/-- How the type's numbers are written. -/
def layout : FloatType → Layout
  | .float16 => .upTo 1000
  | .float32 => .upTo 1000000
  | .float64 => .plain

end FloatType

/-- The value of a numeral under some converter. -/
inductive Value where
  | integer (n : Int)
  | fixedInt (t : IntType) (n : Int)
  | float (x : Binary)
  | fixedFloat (t : FloatType) (x : Binary)
  | decimal (d : Decimal)
  | fraction (q : Rat)
  | complex (z : ComplexNumber)
  | string (s : String)
  | boolean (b : Bool)
  | nothing
deriving DecidableEq, Repr

/-- The longest integer that is read or written, in digits. -/
def maxDigits : Nat := 4300

namespace Value

/-- The text of a fraction: a whole number, or numerator and denominator. -/
def fractionText (q : Rat) : String :=
  if q.den = 1 then toString q.num else toString q.num ++ "/" ++ toString q.den

/-- The value as trees show it. -/
def text : Value → String
  | integer n | fixedInt _ n => toString n
  | float x => Layout.plain.write double x
  | fixedFloat t x => t.layout.write t.format x
  | decimal d => d.text
  | fraction q => fractionText q
  | complex z => z.text
  | string s => s
  | boolean b => if b then "True" else "False"
  | nothing => "None"

/-- The value as token dumps show it: with the name of its type where the text alone
does not tell it. -/
def shown (v : Value) : String :=
  match v with
  | fixedInt t _ => "np." ++ t.name ++ "(" ++ v.text ++ ")"
  | fixedFloat t _ => "np." ++ t.name ++ "(" ++ v.text ++ ")"
  | decimal d => "Decimal('" ++ d.text ++ "')"
  | fraction q => "Fraction(" ++ toString q.num ++ ", " ++ toString q.den ++ ")"
  | string s => Text.quoted s
  | _ => v.text

/-- Has the integer at most `maxDigits` digits? -/
def shortInteger (n : Int) : Bool := n.natAbs < 10 ^ maxDigits

/-- Are the integers in the value short enough to be written? -/
def isPrintable : Value → Bool
  | integer n => shortInteger n
  | fraction q => shortInteger q.num && shortInteger q.den
  | _ => true

/-- The rational number that the value denotes, if it denotes one.  A floating point
number of a fixed width is taken at its width. -/
def toRat? : Value → Option Rat
  | integer n | fixedInt _ n => some n
  | float x => x.toRat?
  | fixedFloat t x => (t.format.convert x).toRat?
  | decimal d => d.toRat?
  | fraction q => some q
  | boolean b => some (if b then 1 else 0)
  | complex _ | string _ | nothing => none

/-- The value with a fixed-width floating point number widened to a double.  Ranges show
their numbers so. -/
def widened : Value → Value
  | fixedFloat _ x => float (double.convert x)
  | v => v

/-- The value, unless it is nothing. -/
def present? : Value → Option Value
  | nothing => none
  | v => some v

end Value

end ExprFront
