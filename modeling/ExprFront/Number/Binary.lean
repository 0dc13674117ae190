import ExprFront.Number.Numeral

/-!
# Binary floating point

A binary number is a sign, a significand and a power of two, or an infinity, or
not a number.  A `BinaryFormat` says how many bits the significand has and which
powers the last place may have; the three formats in use are `half`, `single` and
`double`.

`BinaryFormat.round` takes a quotient of natural numbers to the nearest number of
the format, a tie going to the even significand and an excess to infinity.  All
arithmetic is exact, so the numbers of a format are just certain rationals
(`Binary.toRat?`).
-/

namespace ExprFront.Number

/-- A binary floating point number.  A finite one is `significand * 2 ^ exponent`
under its sign. -/
inductive Binary where
  | finite (negative : Bool) (significand : Nat) (exponent : Int)
  | infinite (negative : Bool)
  | nan
deriving DecidableEq, Repr

/-- A floating point format. -/
structure BinaryFormat where
  /-- Bits of the significand. -/
  precision : Nat
  /-- Exponent of the last place of the smallest numbers. -/
  least : Int
  /-- Exponent of the last place of the largest numbers. -/
  greatest : Int
deriving DecidableEq, Repr

/-- Half precision: 16 bits. -/
def half : BinaryFormat := ⟨11, -24, 5⟩

/-- Single precision: 32 bits. -/
def single : BinaryFormat := ⟨24, -149, 104⟩

/-- Double precision: 64 bits. -/
def double : BinaryFormat := ⟨53, -1074, 971⟩

/-- `num / den` to the nearest natural number, a tie to the even one. -/
def roundQuotient (num den : Nat) : Nat :=
  let q := num / den
  let r := num % den
  if 2 * r < den then q else if den < 2 * r then q + 1 else q + q % 2

/-- The nonnegative rational `m * 2 ^ e`. -/
def dyadic (m : Nat) (e : Int) : Rat :=
  if 0 ≤ e then ((m * 2 ^ e.toNat : Nat) : Rat) else mkRat m (2 ^ (-e).toNat)

/-- The rational value of a finite number. -/
def Binary.toRat? : Binary → Option Rat
  | .finite negative m e => some (if negative then -dyadic m e else dyadic m e)
  | .infinite _ | .nan => none

/-- Is the number neither infinite nor undefined? -/
def Binary.isFinite : Binary → Bool
  | .finite .. => true
  | .infinite _ | .nan => false

/-- The greatest `e` with `2 ^ e ≤ num / den`, for positive `num` and `den`. -/
def floorLog2 (num den : Nat) : Int :=
  let e : Int := (num.log2 : Int) - den.log2
  if den * 2 ^ e.toNat ≤ num * 2 ^ (-e).toNat then e else e - 1

namespace BinaryFormat

/-- The largest finite number of the format. -/
def maximum (f : BinaryFormat) : Rat := dyadic (2 ^ f.precision - 1) f.greatest

/-- The exponent of the last place at `num / den`. -/
def lastPlace (f : BinaryFormat) (num den : Nat) : Int :=
  max f.least (floorLog2 num den + 1 - f.precision)

/-- A finite number, or an infinity if the last place is beyond the format. -/
def bounded (f : BinaryFormat) (negative : Bool) (m : Nat) (e : Int) : Binary :=
  if f.greatest < e then .infinite negative else .finite negative m e

/-- The number of the format nearest to `num / den` under a sign.  A significand that
rounds up to a power of two takes one place more. -/
def round (f : BinaryFormat) (negative : Bool) (num den : Nat) : Binary :=
  if num = 0 then .finite negative 0 f.least
  else
    let e := f.lastPlace num den
    let m := roundQuotient (num * 2 ^ (-e).toNat) (den * 2 ^ e.toNat)
    if m = 2 ^ f.precision then f.bounded negative (2 ^ (f.precision - 1)) (e + 1)
    else f.bounded negative m e

/-- The number of the format nearest to `m * 2 ^ e` under a sign. -/
def ofDyadic (f : BinaryFormat) (negative : Bool) (m : Nat) (e : Int) : Binary :=
  f.round negative (m * 2 ^ e.toNat) (2 ^ (-e).toNat)

/-- The number of the format nearest to `m * 10 ^ s` under a sign. -/
def ofScaled (f : BinaryFormat) (negative : Bool) (m : Nat) (s : Int) : Binary :=
  f.round negative (m * 10 ^ s.toNat) (10 ^ (-s).toNat)

/-- The number of the format nearest to a numeral.  An exponent mark can put a
numeral so far out of the format that its power of ten is not worth computing:
`10 ^ k` is at least `8 ^ k`, which settles those. -/
def ofNumeral (f : BinaryFormat) (n : Numeral) : Binary :=
  let top := (digitsOf n.coefficient).length + n.scale
  if n.exponent = 0 ∨ n.coefficient = 0 then
    f.ofScaled n.negative n.coefficient (if n.coefficient = 0 then 0 else n.scale)
  else if f.greatest + f.precision ≤ 3 * (top - 1) then .infinite n.negative
  else if 3 * top < f.least then .finite n.negative 0 f.least
  else f.ofScaled n.negative n.coefficient n.scale

/-- The number of the format nearest to a number of any format. -/
def convert (f : BinaryFormat) : Binary → Binary
  | .finite negative m e => f.ofDyadic negative m e
  | x => x

/-- The number of the format nearest to half of a number. -/
def halve (f : BinaryFormat) : Binary → Binary
  | .finite negative m e => f.ofDyadic negative m (e - 1)
  | x => x

/-- The number of the format nearest to an integer. -/
def ofInt (f : BinaryFormat) (n : Int) : Binary := f.round (n < 0) n.natAbs 1

end BinaryFormat

end ExprFront.Number
