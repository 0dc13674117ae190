import ExprFront.Number.Binary

/-!
# The shortest decimal digits of a binary number

The decimal text of a binary number has the fewest digits that read back as the
same number of its format.  Every decimal in the number's rounding interval reads
back; the ends of the interval belong to it if the significand is even.

`shortestDigits` tries the decimal grids `10 ^ k` from the coarsest that can hold
the number downwards.  On each it looks at the two grid points around the number:
the first grid with a point in the interval wins, and of two such points the
nearer, a tie going to the even digit.
-/

namespace ExprFront.Number

/-- A positive decimal `coefficient * 10 ^ power`. -/
structure Scaled where
  coefficient : Nat
  power : Int
deriving DecidableEq, Repr

namespace Scaled

/-- Digits without trailing zeros. -/
def digits (d : Scaled) : List Char :=
  match ((digitsOf d.coefficient).reverse.dropWhile (· = '0')).reverse with
  | [] => ['0']
  | ds => ds

/-- The power of ten of the first digit. -/
def leading (d : Scaled) : Int := d.power + (digitsOf d.coefficient).length - 1

end Scaled

/-- The greatest `k` with `10 ^ k ≤ num / den`, for positive `num` and `den`. -/
def floorLog10 (num den : Nat) : Int :=
  let k : Int := ((digitsOf num).length : Int) - (digitsOf den).length
  if den * 10 ^ k.toNat ≤ num * 10 ^ (-k).toNat then k else k - 1

/-- The rounding interval of a number, in quarters of its last place: the number
lies at `mid * 2 ^ exponent`, and the interval runs from `low` to `high`. -/
structure Interval where
  low : Nat
  mid : Nat
  high : Nat
  exponent : Int
  closed : Bool

namespace Interval

/-- The interval of decimals that read back as `m * 2 ^ e` in the format.  Below a
power of two the next number is half as far away as above it. -/
def of (f : BinaryFormat) (m : Nat) (e : Int) : Interval :=
  let below := if m = 2 ^ (f.precision - 1) ∧ f.least < e then 1 else 2
  ⟨4 * m - below, 4 * m, 4 * m + 2, e - 2, m % 2 = 0⟩

/-- A bound of the interval over the common denominator with the grid `10 ^ k`. -/
def lift (i : Interval) (k : Int) (x : Nat) : Nat := x * 2 ^ i.exponent.toNat * 10 ^ (-k).toNat

/-- One step of the grid `10 ^ k` over the same denominator. -/
def gridStep (i : Interval) (k : Int) : Nat := 2 ^ (-i.exponent).toNat * 10 ^ k.toNat

/-- Does the grid point `c * 10 ^ k` lie in the interval? -/
def holds (i : Interval) (k : Int) (c : Nat) : Bool :=
  let x := c * i.gridStep k
  if i.closed then i.lift k i.low ≤ x && x ≤ i.lift k i.high
  else i.lift k i.low < x && x < i.lift k i.high

/-- The point of the grid `10 ^ k` that stands for the number, if one reads back. -/
def hit? (i : Interval) (k : Int) : Option Nat :=
  let step := i.gridStep k
  let c := i.lift k i.mid / step
  let twice := 2 * (i.lift k i.mid % step)
  match i.holds k c, i.holds k (c + 1) with
  | true, true => some (if twice < step then c else if step < twice then c + 1 else c + c % 2)
  | true, false => some c
  | false, true => some (c + 1)
  | false, false => none

/-- The first hit on the grids from `10 ^ k` downwards, among `tries` of them. -/
def search (i : Interval) : (tries : Nat) → (k : Int) → Scaled
  | 0, k => ⟨i.lift k i.mid / i.gridStep k, k⟩
  | tries + 1, k =>
    match i.hit? k with
    | some c => ⟨c, k⟩
    | none => i.search tries (k - 1)

end Interval

/-- The shortest decimal that reads back as `m * 2 ^ e` in the format.  A decimal
with as many digits as the significand has bits always does. -/
def shortestDigits (f : BinaryFormat) (m : Nat) (e : Int) : Scaled :=
  if m = 0 then ⟨0, 0⟩
  else (Interval.of f m e).search f.precision
    (floorLog10 (m * 2 ^ e.toNat) (2 ^ (-e).toNat))

end ExprFront.Number
