import ExprFront.Grammar
import ExprFront.Proofs.Rounding

/-!
# Values as lengths

The check for whole values compares a value with its own integer part.  This module says what
it finds.

* `Value.whole?` is the natural number that a value equals, and `Value.isUndefined` singles out
  the undefined decimals.
* A value meets its integer part exactly (`Value.compare_floor`): a floating point number of a fixed
  width and its integer part are both numbers of the format, so that rounding changes neither
  (`Value.roundTo?_of_holds`), and a decimal is compared through its rational number
  (`Value.decimalEqualsRat_eq`).

Main results: `Value.isWhole_eq`, by which the check says whether there is such a natural number,
except for an undefined decimal, where it breaks down, and `Value.integerPart_of_whole?`, by which
reading a length that passed the check does not fail.
-/

namespace ExprFront

open Number

/-! ## Signs -/

/-- A rational number from its sign, numerator and denominator. -/
theorem withSign_natAbs (q : ℚ) : withSign (q < 0) (q.num.natAbs / q.den) = q := by
  have hq := Rat.num_div_den q
  rcases lt_or_ge q 0 with hneg | hpos
  · have hnum : (q.num.natAbs : ℚ) = -q.num := by
      rw [← Int.cast_natCast, Int.ofNat_natAbs_of_nonpos (Rat.num_nonpos.2 hneg.le), Int.cast_neg]
    rw [withSign, if_pos (decide_eq_true hneg), hnum, neg_div, neg_neg, hq]
  · have hnum : (q.num.natAbs : ℚ) = q.num := by
      rw [← Int.cast_natCast, Int.natAbs_of_nonneg (Rat.num_nonneg.2 hpos)]
    rw [withSign, if_neg (by simpa using hpos), hnum, hq]

theorem withSign_inj {a b : Bool} {x y : ℚ} (hx : 0 < x) (hy : 0 < y) :
    withSign a x = withSign b y ↔ a = b ∧ x = y := by
  cases a <;> cases b <;> simp only [withSign, if_true, Bool.false_eq_true, if_false, true_and,
    false_and, neg_inj, reduceCtorEq, iff_false] <;> intro h <;> linarith

theorem withSign_eq_zero {a : Bool} {x : ℚ} : withSign a x = 0 ↔ x = 0 := by
  cases a <;> simp [withSign]

/-! ## Floating point numbers of a fixed width -/

theorem proper_double : double.Proper := ⟨by decide, by decide⟩

namespace FloatType

variable {t : FloatType} {q : ℚ}

theorem proper_format (t : FloatType) : t.format.Proper := by
  cases t <;> exact ⟨by decide, by decide⟩

/-- The numbers of a type are doubles. -/
theorem holds_double (h : t.format.Holds q) : double.Holds q := by
  cases t <;> exact h.widen (by decide) (by decide) (by decide)

theorem holds_floor (h : t.format.Holds q) (hq : 0 ≤ q) : t.format.Holds (⌊q⌋ : ℚ) := by
  cases t <;> exact h.floor hq (by decide) (by decide)

end FloatType

namespace Value

theorem Extended.ofBinary?_eq_finite_iff {x : Binary} {q : ℚ} :
    Extended.ofBinary? x = some (.finite q) ↔ x.toRat? = some q := by
  cases x <;> simp [Extended.ofBinary?, Binary.toRat?]

/-- A number of a type meets other numbers as itself. -/
theorem roundTo?_of_holds {t : FloatType} {q : ℚ} (h : t.format.Holds q) :
    (Extended.finite q).roundTo? t.format = some (.finite q) := by
  have hround := BinaryFormat.roundsTo_round proper_double (q < 0) q.num.natAbs q.den_nz
  rw [withSign_natAbs] at hround
  have hdouble := hround.toRat?_of_holds (FloatType.holds_double h)
  have hconvert := BinaryFormat.roundsTo_convert t.proper_format hdouble
  exact Extended.ofBinary?_eq_finite_iff.2 (hconvert.toRat?_of_holds h)

theorem isHuge_of_holds {n : ℤ} (h : double.Holds n) : isHuge n = false := by
  have hround := BinaryFormat.roundsTo_round proper_double (n < 0) n.natAbs Nat.one_ne_zero
  have hn := withSign_natAbs (n : ℚ)
  simp only [Rat.num_intCast, Rat.den_intCast, Int.cast_lt_zero] at hn
  rw [hn] at hround
  have hvalue := hround.toRat?_of_holds h
  unfold isHuge BinaryFormat.ofInt
  cases hx : double.round (n < 0) n.natAbs 1 with
  | finite => rfl
  | infinite | nan =>
    rw [hx] at hvalue
    cases hvalue

end Value

/-! ## Decimals -/

namespace Number

theorem Decimal.toRat?_finite (negative : Bool) (m : ℕ) (e : ℤ) :
    (Decimal.finite negative m e).toRat? = some (withSign negative (m * 10 ^ e)) := by
  have hvalue : mkRat (m * 10 ^ e.toNat) (10 ^ (-e).toNat) = (m : ℚ) * 10 ^ e := by
    obtain ⟨n, rfl | rfl⟩ := e.eq_nat_or_neg
    · simp [Rat.mkRat_eq_div]
    · simp [Rat.mkRat_eq_div, div_eq_mul_inv]
  rw [toRat?, hvalue]
  rfl

/-- A multiple of a power of ten has more bits than the power has zeros. -/
theorem le_log2_of_mul_ten_pow {m k n : ℕ} (hm : m ≠ 0) (h : m * 10 ^ k = n) : k ≤ n.log2 := by
  have hn : n ≠ 0 := by
    rw [← h]
    exact Nat.mul_ne_zero hm (Nat.pow_pos (by decide)).ne'
  rw [Nat.le_log2 hn, ← h]
  calc 2 ^ k ≤ 10 ^ k := Nat.pow_le_pow_left (by decide) k
    _ ≤ m * 10 ^ k := Nat.le_mul_of_pos_left _ (Nat.pos_of_ne_zero hm)

section Powers

variable {m num den : ℕ} (k : ℕ) (hden : den ≠ 0)

include hden

theorem mul_ten_pow_eq_iff (hm : m ≠ 0) :
    k ≤ num.log2 ∧ m * 10 ^ k * den = num ↔ (m : ℚ) * 10 ^ (k : ℤ) = num / den := by
  have hden' : (den : ℚ) ≠ 0 := by exact_mod_cast hden
  rw [zpow_natCast, eq_div_iff hden']
  norm_cast
  refine ⟨And.right, fun h => ⟨le_log2_of_mul_ten_pow (Nat.mul_ne_zero hm hden) ?_, h⟩⟩
  rw [← h]
  ring

theorem div_ten_pow_eq_iff (hnum : num ≠ 0) :
    k ≤ (m * den).log2 ∧ m * den = num * 10 ^ k ↔ (m : ℚ) * 10 ^ (-k : ℤ) = num / den := by
  have hden' : (den : ℚ) ≠ 0 := by exact_mod_cast hden
  rw [zpow_neg, zpow_natCast, ← div_eq_mul_inv, div_eq_div_iff (by positivity) hden']
  norm_cast
  exact ⟨And.right, fun h => ⟨le_log2_of_mul_ten_pow hnum h.symm, h⟩⟩

end Powers

end Number

namespace Value

/-- A decimal is compared with a rational number exactly. -/
theorem decimalEqualsRat_eq (negative : Bool) (m : ℕ) (e : ℤ) (q : ℚ) :
    decimalEqualsRat negative m e q = decide (withSign negative (m * 10 ^ e) = q) := by
  have hq := withSign_natAbs q
  have hzero : q = 0 ↔ q.num.natAbs = 0 := by simp
  have hsign : (q.num < 0) = (q < 0) := by simp
  have hden := q.den_nz
  rw [Bool.eq_iff_iff, decide_eq_true_iff]
  unfold decimalEqualsRat
  simp only [hsign]
  generalize q.num.natAbs = num at hq hzero ⊢
  generalize q.den = den at hq hden ⊢
  split
  · next h =>
    rw [decide_eq_true_iff]
    rcases h with hm | hnum
    · rw [hm, Nat.cast_zero, zero_mul, withSign_eq_zero.2 rfl, eq_comm (a := 0) (b := q), hzero]
      simp
    · rw [hzero.2 hnum, withSign_eq_zero, mul_eq_zero, Nat.cast_eq_zero]
      simp [hnum, zpow_ne_zero]
  · next h =>
    obtain ⟨hm, hnum⟩ := not_or.1 h
    have hm' : (0 : ℚ) < m := by exact_mod_cast Nat.pos_of_ne_zero hm
    have hnum' : (0 : ℚ) < num := by exact_mod_cast Nat.pos_of_ne_zero hnum
    have hden' : (0 : ℚ) < den := by exact_mod_cast Nat.pos_of_ne_zero hden
    rw [← hq, withSign_inj (by positivity) (by positivity), hq]
    split
    · next hne => simp [hne]
    · next heq =>
      rw [not_not] at heq
      simp only [heq, true_and]
      split
      · next he =>
        obtain ⟨k, rfl⟩ := Int.eq_ofNat_of_zero_le he
        rw [Bool.and_eq_true, decide_eq_true_iff, beq_iff_eq, Int.toNat_natCast]
        exact mul_ten_pow_eq_iff k hden hm
      · next he =>
        obtain ⟨k, hk⟩ := Int.eq_ofNat_of_zero_le (by omega : 0 ≤ -e)
        obtain rfl : e = -(k : ℤ) := by omega
        rw [Bool.and_eq_true, decide_eq_true_iff, beq_iff_eq, neg_neg, Int.toNat_natCast]
        exact div_ten_pow_eq_iff k hden hnum

/-! ## The check -/

/-- The natural number that the value equals, if there is one. -/
def whole? (v : Value) : Option Nat :=
  v.toRat?.bind fun q => if q.den = 1 ∧ 0 ≤ q.num then some q.num.toNat else none

/-- Is the value an undefined decimal? -/
def isUndefined : Value → Bool
  | decimal (.nan ..) => true
  | _ => false

/-- The natural number that a value equals, as a rational. -/
theorem whole?_eq_some_iff {v : Value} {n : Nat} :
    v.whole? = some n ↔ v.toRat? = some (n : Rat) := by
  rw [whole?, Option.bind_eq_some_iff]
  constructor
  · rintro ⟨q, hq, hn⟩
    split at hn
    · next hwhole =>
      cases hn
      rw [hq]
      congr 1
      apply Rat.ext
      · rw [Rat.num_natCast, Int.toNat_of_nonneg hwhole.2]
      · rw [Rat.den_natCast, hwhole.1]
    · cases hn
  · intro h
    refine ⟨n, h, ?_⟩
    simp

/-- Finite numbers are rational ones. -/
theorem extended?_eq_finite_iff {v : Value} {q : ℚ} :
    v.extended? = some (.finite q) ↔ v.toRat? = some q := by
  cases v with
  | float x => exact Extended.ofBinary?_eq_finite_iff
  | fixedFloat t x => exact Extended.ofBinary?_eq_finite_iff
  | decimal d => cases d <;> simp [extended?, toRat?, Decimal.toRat?]
  | _ => simp [extended?, toRat?]

section Floor

variable {v : Value} {q : ℚ} (hq : v.toRat? = some q)

include hq

theorem isNonneg_of_toRat? : v.isNonneg = .ok (decide (0 ≤ q)) := by
  have hextended := extended?_eq_finite_iff.2 hq
  cases v with
  | complex | string | nothing => cases hq
  | decimal d =>
    cases d with
    | nan => cases hq
    | _ => simp [isNonneg, hextended, Extended.isNonneg]
  | _ => simp [isNonneg, hextended, Extended.isNonneg]

/-- The integer part of a number that is at least zero is rounded down. -/
theorem integerPart_of_toRat? (h0 : 0 ≤ q) : v.integerPart = .ok ⌊q⌋ := by
  have hextended := extended?_eq_finite_iff.2 hq
  have hfloor : q.num.tdiv q.den = ⌊q⌋ := by
    rw [Rat.floor_def', Int.tdiv_eq_ediv_of_nonneg (Rat.num_nonneg.2 h0)]
  cases v with
  | complex | string | nothing => cases hq
  | decimal d =>
    cases d with
    | nan | infinite => cases hq
    | _ => simp [integerPart, hextended, hfloor]
  | _ => simp [integerPart, hextended, hfloor]

/-- A value is compared exactly with its integer part. -/
theorem compare_floor (h0 : 0 ≤ q) : v.compare (integer ⌊q⌋) = .ofBool (decide (q = ⌊q⌋)) := by
  have hextended := extended?_eq_finite_iff.2 hq
  have hinteger : (integer ⌊q⌋).extended? = some (.finite (⌊q⌋ : ℚ)) := rfl
  cases v with
  | complex | string | nothing => cases hq
  | fixedFloat t x =>
    have hholds := BinaryFormat.holds_of_convert t.proper_format hq
    have hfloor := FloatType.holds_floor hholds h0
    have hhuge := isHuge_of_holds (FloatType.holds_double hfloor)
    have hsame : (fixedFloat t x).same (integer ⌊q⌋) = decide (q = ⌊q⌋) := by
      simp only [same, sameReal, sameExtended, hextended, hinteger, meeting?,
        roundTo?_of_holds hholds, roundTo?_of_holds hfloor, beq_eq_decide, Extended.finite.injEq]
    rw [compare, refusal?, hhuge, hsame]
    rfl
  | decimal d =>
    cases d with
    | nan | infinite => cases hq
    | finite negative m e =>
      rw [toRat?, Decimal.toRat?_finite] at hq
      obtain rfl := Option.some.inj hq
      simp [compare, refusal?, same, sameReal, isSignaling, hinteger, decimalEqualsRat_eq]
  | _ =>
    simp only [compare, refusal?, isSignaling, Bool.false_and, Bool.or_self, Bool.false_eq_true,
      if_false, same, sameReal, sameExtended, hextended, hinteger, meeting?, beq_eq_decide,
      Extended.finite.injEq]

end Floor

theorem isSome_whole? {v : Value} {q : ℚ} (hq : v.toRat? = some q) :
    v.whole?.isSome = decide (0 ≤ q ∧ q = ⌊q⌋) := by
  rw [Bool.eq_iff_iff, decide_eq_true_iff, Option.isSome_iff_exists]
  simp only [whole?_eq_some_iff, hq, Option.some.injEq]
  constructor
  · rintro ⟨n, rfl⟩
    exact ⟨Nat.cast_nonneg n, by rw [Int.floor_natCast, Int.cast_natCast]⟩
  · rintro ⟨h0, hfloor⟩
    refine ⟨⌊q⌋.toNat, ?_⟩
    rw [← Int.cast_natCast, Int.toNat_of_nonneg (Int.floor_nonneg.2 h0)]
    exact hfloor

theorem whole?_of_isUndefined {v : Value} (h : v.isUndefined = true) : v.whole? = none := by
  cases v with
  | decimal d => cases d <;> first | rfl | cases h
  | _ => cases h

theorem whole?_of_toRat?_eq_none {v : Value} (h : v.toRat? = none) : v.whole? = none := by
  rw [whole?, h]
  rfl

/-- On a finite number the check breaks down nowhere. -/
theorem isWhole_of_toRat? {v : Value} {q : ℚ} (hq : v.toRat? = some q) :
    v.isWhole = .ok v.whole?.isSome := by
  rw [isSome_whole? hq, isWhole, isNonneg_of_toRat? hq]
  by_cases h0 : 0 ≤ q
  · have hequals : v.equalsInteger ⌊q⌋ = .ok (decide (q = ⌊q⌋)) := by
      rw [equalsInteger, compare_floor hq h0]
      cases decide (q = ⌊q⌋) <;> rfl
    simp only [h0, decide_true, true_and, integerPart_of_toRat? hq h0, Except.bind, bind, hequals,
      tryCatch, tryCatchThe, MonadExceptOf.tryCatch, Except.tryCatch, if_true]
  · simp [h0]
    rfl

/-- The check says whether the value equals a natural number, and breaks down on an undefined
decimal, which has no place in the order. -/
theorem isWhole_eq (v : Value) :
    v.isWhole = if v.isUndefined then .error .undefinedOrder else .ok v.whole?.isSome := by
  cases hq : v.toRat? with
  | some q =>
    have hdefined : v.isUndefined = false := by
      cases v with
      | decimal d => cases d <;> first | rfl | cases hq
      | _ => rfl
    rw [isWhole_of_toRat? hq, hdefined]
    rfl
  | none =>
    rw [whole?_of_toRat?_eq_none hq]
    cases v with
    | integer | fixedInt | fraction | boolean => cases hq
    | complex | string | nothing => rfl
    | float x =>
      cases x with
      | finite => cases hq
      | infinite negative => cases negative <;> rfl
      | nan => rfl
    | fixedFloat t x =>
      simp only [isWhole, isNonneg, integerPart, extended?]
      rw [toRat?] at hq
      generalize t.format.convert x = y at hq ⊢
      cases y with
      | finite => cases hq
      | infinite negative => cases negative <;> rfl
      | nan => rfl
    | decimal d =>
      cases d with
      | finite => cases hq
      | infinite negative => cases negative <;> rfl
      | nan => rfl

/-- The integer part of a length is that length. -/
theorem integerPart_of_whole? {v : Value} {n : ℕ} (h : v.whole? = some n) :
    v.integerPart = .ok (n : ℤ) := by
  rw [integerPart_of_toRat? (whole?_eq_some_iff.1 h) (Nat.cast_nonneg n), Int.floor_natCast]

end Value

/-! ## Ranges -/

namespace Grammar

open Buffer

/-- The fault of a length that is no natural number. -/
def lengthFault (t : Token) : ParseFault :=
  .invalidRange "Range length must be a non-negative integer" t

/-- How a parse of the source `file` ends at the token `t` of a length `v` that is no natural
number. -/
def lengthFailure (file : String) (v : Value) (t : Token) : Failure :=
  if v.isUndefined then .breakdown .undefinedOrder else .grammatical ⟨lengthFault t, file⟩

theorem inFile_lengthFailure (file file' : String) (v : Value) (t : Token) :
    (lengthFailure file v t).inFile file' = lengthFailure file' v t := by
  unfold lengthFailure
  split <;> rfl

/-- The length of a range as a natural number. -/
def rangeCount : Parser Nat := do
  let (v, t) ← number "a range length"
  match v.whole? with
  | some n => return n
  | none => throw (lengthFailure anonymous v t)

/-- A length that passes the check can be read as a natural number at once. -/
theorem range_eq (pos : Position) : range pos = (do
    let (start, _) ← number "a range start"
    let _ ← advance "'..'"
    let n ← rangeCount
    let step ← rangeStep
    expectClosing .rightBracket "Expected a closing bracket"
    return .range start n step pos) := by
  unfold range rangeLength rangeCount
  simp only [bind_assoc]
  congr! 6 with start _ length
  rw [Value.isWhole_eq]
  split
  · next hundefined =>
    rw [Value.whole?_of_isUndefined hundefined, lengthFailure, if_pos hundefined]
    rfl
  · next hdefined =>
    cases hn : length.1.whole? with
    | none =>
      rw [lengthFailure, if_neg hdefined]
      rfl
    | some n => simp [answer, Value.integerPart_of_whole? hn]

end Grammar

end ExprFront
