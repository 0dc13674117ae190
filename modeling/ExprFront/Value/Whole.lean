import ExprFront.Conversion

/-!
# Whole values

The length of a range may be any value that a converter gives, so it is first asked
whether it is whole: whether it is at least zero and equals its own integer part.  Each
of the three steps may fail instead of giving an answer:

* `Value.isNonneg` on a value that is no real number, and on an undefined decimal (an
  undefined floating point number is just not at least zero);
* `Value.integerPart` on a value that is no real number, and on a number that is not
  finite;
* `Value.equalsInteger` where the comparison is refused.

`Value.isWhole` takes a failure for a no if it is of a kind that says so
(`ConversionError.meansNo`), and fails with it otherwise.
-/

namespace ExprFront

open Number

/-- Is the failure of a kind that only says that a value is not whole? -/
def ConversionError.meansNo (e : ConversionError) : Bool :=
  e.kind ∈ [.type, .value, .overflow]

namespace Value

/-- Is the number at least zero? -/
def Extended.isNonneg : Extended → Bool
  | .finite q => 0 ≤ q
  | .infinite negative => !negative

/-- Is the value at least zero? -/
def isNonneg : Value → Except ConversionError Bool
  | complex _ => .error (.unordered "complex")
  | string _ => .error (.unordered "str")
  | nothing => .error (.unordered "NoneType")
  | decimal (.nan ..) => .error .undefinedOrder
  | v => .ok (v.extended?.any Extended.isNonneg)

/-- The integer part of the value, cut off towards zero.  A text is read as an integer. -/
def integerPart : Value → Except ConversionError Int
  | complex _ => .error (.noIntegerPart "complex")
  | nothing => .error (.noIntegerPart "NoneType")
  | string s => Converter.readInteger s
  | decimal (.infinite _) => .error (.infinitePart "Infinity")
  | decimal (.nan ..) => .error (.undefinedPart "NaN")
  | v =>
    match v.extended? with
    | some (.finite q) => .ok (q.num.tdiv q.den)
    | some (.infinite _) => .error (.infinitePart "float infinity")
    | none => .error (.undefinedPart "float NaN")

/-- Does the value equal the integer? -/
def equalsInteger (v : Value) (n : Int) : Except ConversionError Bool :=
  match v.compare (integer n) with
  | .equal => .ok true
  | .different => .ok false
  | .refused r => .error (.refused r)

/-- Is the value at least zero and equal to its integer part? -/
def isWhole (v : Value) : Except ConversionError Bool :=
  tryCatch
    (do
      if ← v.isNonneg then
        let n ← v.integerPart
        v.equalsInteger n
      else
        return false)
    fun e => if e.meansNo then return false else throw e

end Value

end ExprFront
