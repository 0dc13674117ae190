import ExprFront.Value

/-!
# Equal values

Values of different types are compared as numbers: the integer one equals the
floating point one and the decimal `1.0`.  Between exact types the comparison is
exact.  A fixed-width number meets a number of another kind at the precision of a
floating point format, and both are rounded to it first.

`Value.same` tells whether two values are equal.  `Value.compare` also tells where the
question is refused (`Refusal`), which may depend on the value that comes first.
-/

namespace ExprFront

open Number

/-- Why two values are not compared. -/
inductive Refusal where
  /-- A signaling NaN meets a real number. -/
  | signalingNaN
  /-- A decimal is asked for its equality with a fixed-width integer, which it takes for no
  integer. -/
  | foreignInteger
  /-- An integer beyond all doubles meets a fixed-width floating point number. -/
  | hugeInteger
deriving DecidableEq, Repr

/-- The text of the failure. -/
def Refusal.message : Refusal → String
  | signalingNaN => "[<class 'decimal.InvalidOperation'>]"
  | foreignInteger => "argument must be an integer"
  | hugeInteger => "int too large to convert to float"

/-- What a comparison finds. -/
inductive Comparison where
  | equal
  | different
  /-- It came to two values that are not compared. -/
  | refused (r : Refusal)
deriving DecidableEq, Repr

namespace Comparison

/-- The comparison that a test decides. -/
def ofBool (b : Bool) : Comparison := if b then .equal else .different

/-- Goes on to a second comparison if the first one finds no difference. -/
def andThen : Comparison → Comparison → Comparison
  | .equal, c => c
  | c, _ => c

end Comparison

namespace Value

/-- A rational number or an infinity. -/
inductive Extended where
  | finite (q : Rat)
  | infinite (negative : Bool)
deriving DecidableEq

/-- A binary number as an extended rational; none for NaN. -/
def Extended.ofBinary? : Binary → Option Extended
  | .infinite negative => some (.infinite negative)
  | x => x.toRat?.map .finite

/-- The extended rational that a value denotes. -/
def extended? : Value → Option Extended
  | float x => Extended.ofBinary? x
  | fixedFloat t x => Extended.ofBinary? (t.format.convert x)
  | decimal (.infinite negative) => some (.infinite negative)
  | v => v.toRat?.map .finite

/-- An extended rational rounded to a double, and then to a format. -/
def Extended.roundTo? (f : BinaryFormat) : Extended → Option Extended
  | .finite q => Extended.ofBinary? (f.convert (double.round (q < 0) q.num.natAbs q.den))
  | x => some x

/-- The format in which an integer type and a floating point type meet. -/
def jointFormat (t : IntType) (u : FloatType) : BinaryFormat :=
  match t.width, u with
  | .w8, _ => u.format
  | .w16, .float64 => double
  | .w16, _ => single
  | _, _ => double

/-- The format in which two values meet; none if they are compared exactly. -/
def meeting? : Value → Value → Option BinaryFormat
  | fixedInt t _, fixedFloat u _ => some (jointFormat t u)
  | fixedFloat u _, fixedInt t _ => some (jointFormat t u)
  | fixedInt .., float _ => some double
  | float _, fixedInt .. => some double
  | fixedFloat t _, integer _ => some t.format
  | fixedFloat t _, float _ => some t.format
  | fixedFloat t _, boolean _ => some t.format
  | integer _, fixedFloat t _ => some t.format
  | float _, fixedFloat t _ => some t.format
  | boolean _, fixedFloat t _ => some t.format
  | _, _ => none

/-- Do two finite decimals denote one number?  Their leading digits must stand at
the same power of ten before the coefficients are aligned. -/
def sameDecimal (m : Nat) (e : Int) (m' : Nat) (e' : Int) : Bool :=
  e + (digitsOf m).length == e' + (digitsOf m').length
    && m * 10 ^ (e - min e e').toNat == m' * 10 ^ (e' - min e e').toNat

/-- Does `m * 10 ^ e` under a sign equal a rational number?  A power of ten with more
digits than the other side has bits is not worth computing. -/
def decimalEqualsRat (negative : Bool) (m : Nat) (e : Int) (q : Rat) : Bool :=
  let num := q.num.natAbs
  if m = 0 ∨ num = 0 then m = 0 ∧ num = 0
  else if negative ≠ decide (q.num < 0) then false
  else if 0 ≤ e then e.toNat ≤ num.log2 && m * 10 ^ e.toNat * q.den == num
  else (-e).toNat ≤ (m * q.den).log2 && m * q.den == num * 10 ^ (-e).toNat

/-- Are two values that are no finite decimals and have no imaginary part equal? -/
def sameExtended (v w : Value) : Bool :=
  match v.extended?, w.extended? with
  | some x, some y =>
    match meeting? v w with
    | none => x == y
    | some f =>
      match x.roundTo? f, y.roundTo? f with
      | some x, some y => x == y
      | _, _ => false
  | _, _ => false

/-- Are two values without an imaginary part equal? -/
def sameReal : Value → Value → Bool
  | string a, string b => a == b
  | nothing, nothing => true
  | decimal (.finite n m e), decimal (.finite n' m' e') =>
    (m == 0 && m' == 0) || (n == n' && m != 0 && m' != 0 && sameDecimal m e m' e')
  | decimal (.finite n m e), v | v, decimal (.finite n m e) =>
    match v.extended? with
    | some (.finite q) => decimalEqualsRat n m e q
    | _ => false
  | v, w => sameExtended v w

/-- Is the number zero? -/
def isZero (x : Binary) : Bool := x.toRat? == some 0

/-- The format of the parts of a complex number that meets a floating point type. -/
def complexFormat : FloatType → BinaryFormat
  | .float16 | .float32 => single
  | .float64 => double

/-- Does a complex number equal a value that is none?  It meets a fixed-width floating
point number at the precision of its own parts. -/
def sameComplex (z : ComplexNumber) : Value → Bool
  | fixedFloat t x =>
    isZero ((complexFormat t).convert z.im)
      && sameReal (float ((complexFormat t).convert z.re)) (float x)
  | v => isZero z.im && sameReal (float z.re) v

/-- Are two values equal? -/
def same : Value → Value → Bool
  | complex z, complex w => sameReal (float z.re) (float w.re) && sameReal (float z.im) (float w.im)
  | complex z, v | v, complex z => sameComplex z v
  | v, w => sameReal v w

/-- Is the value a signaling NaN? -/
def isSignaling : Value → Bool
  | decimal (.nan _ signaling _) => signaling
  | _ => false

/-- Does the value let itself be compared with a real number? -/
def isReal : Value → Bool
  | complex z => isZero z.im
  | string _ | nothing => false
  | _ => true

/-- Is an integer beyond all doubles? -/
def isHuge (n : Int) : Bool := !(double.ofInt n).isFinite

/-- Why two values are not compared, if they are not. -/
def refusal? (v w : Value) : Option Refusal :=
  match v, w with
  | decimal _, fixedInt .. => some .foreignInteger
  | integer n, fixedFloat .. | fixedFloat .., integer n =>
    if isHuge n then some .hugeInteger else none
  | v, w =>
    if (v.isSignaling && w.isReal) || (w.isSignaling && v.isReal) then some .signalingNaN
    else none

/-- What the comparison of two values finds. -/
def compare (v w : Value) : Comparison :=
  match v.refusal? w with
  | some r => .refused r
  | none => .ofBool (v.same w)

end Value

end ExprFront
