import ExprFront.Value.Sameness

/-!
# Converting numerals

A `Converter` turns the text of a numeral into a value or fails with a
`ConversionError`, which also says how a question about a value can fail.  This module
holds the readers behind the number types: integers, floating point numbers, decimals,
fractions and complex numbers, each exact, with the range checks of the fixed-width
types.

The readers accept more than the numerals of the source language: white space
around the number, digits of any script, underscores between digits, exponents,
infinities.  A converter may be applied to any text.
-/

namespace ExprFront

open Number

/-- What kind of failure a conversion ended in. -/
inductive ConversionError.Class where
  /-- The number does not fit the type. -/
  | overflow
  /-- The text is no number of the type. -/
  | value
  /-- The text is no decimal, or a decimal is undefined. -/
  | invalidOperation
  /-- A denominator is zero. -/
  | zeroDivision
  /-- The text or the value is of the wrong type. -/
  | type
  /-- A failure that is no verdict on the numeral. -/
  | runtime
deriving DecidableEq, Repr

/-- Why a conversion of a text, or a question about a value, failed. -/
inductive ConversionError where
  | notInteger (text : String)
  | tooManyDigits (count : Nat)
  | outOfRange (text : String) (t : IntType)
  | notFloat (text : String)
  | notFinite (text : String)
  | notFiniteIn (text : String) (t : FloatType)
  | notDecimal
  | decimalOutOfBounds
  | notFraction (text : String)
  | zeroDenominator (numerator : Int)
  | notComplex
  | misgroupedComplex (text : String)
  /-- Values of the type are not ordered. -/
  | unordered (type : String)
  /-- A decimal that is undefined has no place in the order. -/
  | undefinedOrder
  /-- Values of the type have no integer part. -/
  | noIntegerPart (type : String)
  /-- The integer part of an infinity. -/
  | infinitePart (number : String)
  /-- The integer part of an undefined number. -/
  | undefinedPart (number : String)
  /-- Two values that are not compared. -/
  | refused (r : Refusal)
  | custom (kind : ConversionError.Class) (message : String)
deriving DecidableEq, Repr

namespace ConversionError

/-- The kind of the failure. -/
def kind : ConversionError → Class
  | outOfRange .. | notFinite _ | notFiniteIn .. | infinitePart _ | refused .hugeInteger =>
    .overflow
  | notInteger _ | tooManyDigits _ | notFloat _ | notFraction _ | notComplex
  | misgroupedComplex _ | undefinedPart _ => .value
  | notDecimal | decimalOutOfBounds | undefinedOrder | refused .signalingNaN =>
    .invalidOperation
  | zeroDenominator _ => .zeroDivision
  | unordered _ | noIntegerPart _ | refused .foreignInteger => .type
  | custom c _ => c

/-- The text of the failure. -/
def message : ConversionError → String
  | notInteger s =>
    "invalid literal for int() with base 10: " ++ String.ofList ((Text.quotedChars s.toList).take 200)
  | tooManyDigits n =>
    "Exceeds the limit (" ++ toString maxDigits ++ " digits) for integer string conversion: value has "
      ++ toString n ++ " digits; use sys.set_int_max_str_digits() to increase the limit"
  | outOfRange s t =>
    s ++ " is out of range for " ++ t.name ++ " [" ++ toString t.least ++ ", "
      ++ toString t.greatest ++ "]"
  | notFloat s => "could not convert string to float: " ++ Text.quoted s
  | notFinite s => s ++ " does not fit in a float"
  | notFiniteIn s t => s ++ " does not fit in " ++ t.name
  | notDecimal => "[<class 'decimal.ConversionSyntax'>]"
  | decimalOutOfBounds | undefinedOrder => "[<class 'decimal.InvalidOperation'>]"
  | notFraction s => "Invalid literal for Fraction: " ++ Text.quoted s
  | zeroDenominator n => "Fraction(" ++ toString n ++ ", 0)"
  | notComplex => "complex() arg is a malformed string"
  | misgroupedComplex s => "could not convert string to complex: " ++ Text.quoted s
  | unordered type => "'>=' not supported between instances of '" ++ type ++ "' and 'int'"
  | noIntegerPart type =>
    "int() argument must be a string, a bytes-like object or a real number, not '" ++ type ++ "'"
  | infinitePart number | undefinedPart number => "cannot convert " ++ number ++ " to integer"
  | refused r => r.message
  | custom _ m => m

end ConversionError

/-- Turns the text of a numeral into a value. -/
abbrev Converter := String → Except ConversionError Value

namespace Converter

/-- A run of digits as a number, if it is not too long. -/
def boundedDigits (digits : List Char) : Except ConversionError Nat :=
  if maxDigits < digits.length then .error (.tooManyDigits digits.length)
  else .ok (digitsValue digits)

/-- An integer: padding, a sign, and digits with single underscores between them.
Too long a run of digits is found before anything that follows it. -/
def readInteger (s : String) : Except ConversionError Int :=
  let (negative, body) := takeSign ((s.toList.map Text.asciiDigit).dropWhile Text.isPadding)
  let isRun (c : Char) : Bool := c.isDigit || c == '_'
  match ungroup (body.takeWhile isRun) with
  | none | some [] => .error (.notInteger s)
  | some digits =>
    match boundedDigits digits with
    | .error e => .error e
    | .ok n =>
      if (body.dropWhile isRun).all Text.isPadding then .ok (if negative then -(n : Int) else n)
      else .error (.notInteger s)

/-- A double: a numeral, an infinity or a NaN, with padding around it. -/
def readDouble (s : String) : Except ConversionError Binary :=
  match ungroup ((Text.trim Text.isPadding s.toList).map Text.asciiDigit) with
  | none => .error (.notFloat s)
  | some cs =>
    match takeDouble? cs with
    | some (x, []) => .ok x
    | _ => .error (.notFloat s)

/-- An exact decimal. -/
def readDecimal (s : String) : Except ConversionError Decimal :=
  match Decimal.read s with
  | .ok d => .ok d
  | .error .malformed => .error .notDecimal
  | .error .outOfBounds => .error .decimalOutOfBounds

/-- The quotient of two integers, in lowest terms. -/
def quotient (num : Int) (den : Nat) : Except ConversionError Rat :=
  if den = 0 then .error (.zeroDenominator num) else .ok (mkRat num den)

/-- The fraction of a numeral.  Each run of digits is bounded on its own. -/
def fractionOfNumeral (n : Numeral) : Except ConversionError Rat := do
  let whole ← boundedDigits n.whole
  let fraction ← boundedDigits n.fraction
  let _ ← boundedDigits n.written.digits
  let m := whole * 10 ^ n.fraction.length + fraction
  let num : Int := m * 10 ^ n.exponent.toNat
  quotient (if n.negative then -num else num) (10 ^ n.fraction.length * 10 ^ (-n.exponent).toNat)

/-- Does the letter stand for an open digit after the point of a fraction?  It has no
value there. -/
def isOpenDigit (c : Char) : Bool := c == 'd' || c == 'D'

/-- The fraction of a text without its padding and underscores: `n/d`, or a numeral.  In
a numeral the digits after the point may be left open, as a run of the letter `d`; such a
text is taken for a fraction, and its open digits are then refused as an integer. -/
def fractionOfText (s : String) (cs : List Char) : Except ConversionError Rat :=
  let (negative, body) := takeSign cs
  match body.takeWhile Char.isDigit, body.dropWhile Char.isDigit with
  | d :: ds, '/' :: below =>
    if below.isEmpty || !below.all Char.isDigit then .error (.notFraction s)
    else do
      let num ← boundedDigits (d :: ds)
      let den ← boundedDigits below
      quotient (if negative then -(num : Int) else num) den
  | d :: ds, '.' :: after =>
    let letters := after.takeWhile isOpenDigit
    if letters.isEmpty || !(takeExponent (after.dropWhile isOpenDigit)).2.isEmpty then
      .error (.notFraction s)
    else do
      let _ ← boundedDigits (d :: ds)
      .error (.notInteger (String.ofList letters))
  | _, _ => .error (.notFraction s)

/-- A fraction: `n/d`, or a numeral, with white space around it. -/
def readFraction (s : String) : Except ConversionError Rat :=
  match ungroup ((Text.trim Text.isBlank s.toList).map Text.asciiDigit) with
  | none => .error (.notFraction s)
  | some cs =>
    match Numeral.read? cs with
    | some n => fractionOfNumeral n
    | none => fractionOfText s cs

/-- Integers of any size. -/
def integer : Converter := fun s => (readInteger s).map .integer

/-- Integers of a fixed width; one outside the range is refused. -/
def fixedInt (t : IntType) : Converter := fun s =>
  match readInteger s with
  | .error e => .error e
  | .ok n =>
    if n < t.least ∨ t.greatest < n then .error (.outOfRange s t) else .ok (.fixedInt t n)

/-- Plain floating point numbers; only finite ones are accepted. -/
def float : Converter := fun s =>
  match readDouble s with
  | .error e => .error e
  | .ok x => if x.isFinite then .ok (.float x) else .error (.notFinite s)

/-- Does the magnitude of a double stay within the format? -/
def withinFormat (f : BinaryFormat) : Binary → Bool
  | .finite _ m e => dyadic m e ≤ f.maximum
  | _ => false

/-- Floating point numbers of a fixed width, rounded from the double; a double
beyond the largest number of the format is refused before it is rounded. -/
def fixedFloat (t : FloatType) : Converter := fun s =>
  match readDouble s with
  | .error e => .error e
  | .ok x =>
    if withinFormat t.format x then .ok (.fixedFloat t (t.format.convert x))
    else .error (.notFiniteIn s t)

/-- Exact decimals. -/
def decimal : Converter := fun s => (readDecimal s).map .decimal

/-- Exact fractions. -/
def fraction : Converter := fun s => (readFraction s).map .fraction

/-- Complex numbers. -/
def complex : Converter := fun s =>
  match ComplexNumber.read s with
  | .ok z => .ok (.complex z)
  | .error .malformed => .error .notComplex
  | .error .misgrouped => .error (.misgroupedComplex s)

/-- The text itself. -/
def string : Converter := fun s => .ok (.string s)

/-- Is the text nonempty? -/
def boolean : Converter := fun s => .ok (.boolean (s ≠ ""))

end Converter

end ExprFront
