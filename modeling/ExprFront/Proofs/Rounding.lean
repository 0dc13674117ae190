import ExprFront.Number.Binary
import Mathlib.Algebra.Order.Field.Power
import Mathlib.Algebra.Order.Group.Abs
import Mathlib.Data.Rat.Cast.Order
import Mathlib.Data.Rat.Floor
import Mathlib.Tactic.FieldSimp
import Mathlib.Tactic.Linarith
import Mathlib.Tactic.Positivity
import Mathlib.Tactic.Ring

/-!
# Rounding to the nearest number

What it means that a number of a binary format is the nearest one to a rational number, and that
`BinaryFormat.round` finds it.

* `BinaryFormat.Fits` bounds the significand and the exponent of what rounding gives
  (`BinaryFormat.fits_round`).
* `NearestNat` is nearness among the integers, with ties to even.  Quotients are rounded so
  (`nearestNat_roundQuotient`).
* `BinaryFormat.Rounded` is nearness in a format without a greatest exponent.  The integer nearest
  to the number of last places is nearest among all numbers of the format, for those between the
  multiples of the last place are too small to matter (`BinaryFormat.closest_of_nearestNat`).
* `BinaryFormat.Nearest` is nearness among the numbers of the format, and `BinaryFormat.RoundsTo`
  adds that numbers from `BinaryFormat.threshold` on become infinite.  The exponent exceeds the
  format exactly from there on (`BinaryFormat.Rounded.exponent_le_iff`).

Main results: `BinaryFormat.roundsTo_round`, and that the largest number of a format lies below its
threshold (`BinaryFormat.maximum_lt_threshold`).
-/

namespace ExprFront.Number

/-! ## Significands and exponents -/

/-- Rounding a quotient goes up by at most one. -/
theorem roundQuotient_le {num den bound : Nat} (h : num < bound * den) :
    roundQuotient num den ≤ bound := by
  have hlt : num / den < bound := Nat.div_lt_of_lt_mul (by rwa [Nat.mul_comm])
  unfold roundQuotient
  dsimp only
  split
  · omega
  · split
    · omega
    · omega

theorem two_zpow_mul (k : Int) : (2 : ℚ) ^ k * 2 ^ (-k).toNat = 2 ^ k.toNat := by
  obtain ⟨n, rfl | rfl⟩ := k.eq_nat_or_neg
  · simp
  · simp

theorem dyadic_eq (m : Nat) (e : Int) : dyadic m e = m * 2 ^ e := by
  unfold dyadic
  split
  · next he =>
    obtain ⟨n, rfl⟩ := Int.eq_ofNat_of_zero_le he
    simp
  · next he =>
    obtain ⟨n, hn⟩ := Int.eq_ofNat_of_zero_le (show 0 ≤ -e by omega)
    rw [Rat.mkRat_eq_div, hn, show e = -(n : Int) by omega]
    simp [div_eq_mul_inv]

/-- The logarithm is rounded down by less than one. -/
theorem lt_two_zpow_floorLog2 {num den : Nat} (hden : den ≠ 0) :
    (num : ℚ) < den * 2 ^ (floorLog2 num den + 1) := by
  unfold floorLog2
  dsimp only
  split
  · have hnum : (num : ℚ) < 2 ^ (num.log2 + 1) := by exact_mod_cast Nat.lt_log2_self
    have hle : (2 : ℚ) ^ den.log2 ≤ den := by exact_mod_cast Nat.log2_self_le hden
    calc (num : ℚ) < 2 ^ (num.log2 + 1) := hnum
      _ = 2 ^ den.log2 * 2 ^ ((num.log2 : Int) - den.log2 + 1) := by
        rw [← zpow_natCast, ← zpow_natCast, ← zpow_add₀ (by norm_num)]
        congr 1
        omega
      _ ≤ den * 2 ^ ((num.log2 : Int) - den.log2 + 1) := by gcongr
  · next hlt =>
    rw [Int.sub_add_cancel]
    generalize (num.log2 : Int) - den.log2 = e at hlt
    have hcast : (num : ℚ) * 2 ^ (-e).toNat < den * 2 ^ e.toNat := by
      exact_mod_cast Nat.lt_of_not_le hlt
    rw [← two_zpow_mul e, ← mul_assoc] at hcast
    exact lt_of_mul_lt_mul_right hcast (by positivity)

namespace BinaryFormat

variable {f : BinaryFormat}

/-- The significand and the last place of a finite number stay within the format. -/
def Fits (f : BinaryFormat) : Binary → Prop
  | .finite _ m e => m ≤ 2 ^ f.precision ∧ e ≤ f.greatest
  | .infinite _ | .nan => True

theorem fits_bounded {negative : Bool} {m : Nat} {e : Int} (h : m ≤ 2 ^ f.precision) :
    f.Fits (f.bounded negative m e) := by
  unfold bounded
  split
  · trivial
  · next he => exact ⟨h, Int.not_lt.1 he⟩

theorem significand_le (num : Nat) {den : Nat} (hden : den ≠ 0) :
    roundQuotient (num * 2 ^ (-f.lastPlace num den).toNat) (den * 2 ^ (f.lastPlace num den).toNat) ≤
      2 ^ f.precision := by
  have hplace : floorLog2 num den + 1 ≤ f.lastPlace num den + f.precision := by
    have hmax : floorLog2 num den + 1 - f.precision ≤ f.lastPlace num den := Int.le_max_right _ _
    omega
  generalize f.lastPlace num den = e at hplace
  refine roundQuotient_le ?_
  have hcast : (num : ℚ) * 2 ^ (-e).toNat < 2 ^ f.precision * (den * 2 ^ e.toNat) := by
    calc (num : ℚ) * 2 ^ (-e).toNat
        < den * 2 ^ (floorLog2 num den + 1) * 2 ^ (-e).toNat := by
          gcongr
          exact lt_two_zpow_floorLog2 hden
      _ ≤ den * 2 ^ (e + f.precision) * 2 ^ (-e).toNat := by
          gcongr
          norm_num
      _ = 2 ^ f.precision * (den * (2 ^ e * 2 ^ (-e).toNat)) := by
          rw [zpow_add₀ (by norm_num), zpow_natCast]
          ring
      _ = 2 ^ f.precision * (den * 2 ^ e.toNat) := by rw [two_zpow_mul]
  exact_mod_cast hcast

/-- Rounding gives a number of the format. -/
theorem fits_round (hf : f.least ≤ f.greatest) (negative : Bool) (num : Nat) {den : Nat}
    (hden : den ≠ 0) : f.Fits (f.round negative num den) := by
  unfold round
  split
  · exact ⟨Nat.zero_le _, hf⟩
  · dsimp only
    split
    · exact fits_bounded (Nat.pow_le_pow_right (by decide) (Nat.sub_le _ _))
    · exact fits_bounded (significand_le num hden)

theorem fits_ofNumeral (hf : f.least ≤ f.greatest) (n : Numeral) : f.Fits (f.ofNumeral n) := by
  have hscaled : ∀ m s, f.Fits (f.ofScaled n.negative m s) := fun m s =>
    fits_round hf _ _ (Nat.pow_pos (by decide)).ne'
  unfold ofNumeral
  dsimp only
  split
  · exact hscaled _ _
  · split
    · trivial
    · split
      · exact ⟨Nat.zero_le _, hf⟩
      · exact hscaled _ _

theorem fits_convert (hf : f.least ≤ f.greatest) (x : Binary) : f.Fits (f.convert x) := by
  cases x with
  | finite negative m e => exact fits_round hf _ _ (Nat.two_pow_pos _).ne'
  | infinite negative => trivial
  | nan => trivial

/-- A natural number of the format is bounded. -/
theorem Fits.le_of_toRat? {x : Binary} (h : f.Fits x) {n : Nat} (hn : x.toRat? = some (n : Rat)) :
    n ≤ 2 ^ (f.precision + f.greatest.toNat) := by
  cases x with
  | infinite | nan => cases hn
  | finite negative m e =>
    obtain ⟨hm, he⟩ := h
    have hmax : dyadic m e ≤ 2 ^ (f.precision + f.greatest.toNat) := by
      rw [dyadic_eq, pow_add]
      have hm' : (m : ℚ) ≤ 2 ^ f.precision := by exact_mod_cast hm
      have he' : (2 : ℚ) ^ e ≤ 2 ^ f.greatest.toNat := by
        rw [← zpow_natCast]
        exact zpow_le_zpow_right₀ (by norm_num) (by omega)
      gcongr
    have hpos : 0 ≤ dyadic m e := by
      rw [dyadic_eq]
      positivity
    have hle : (n : ℚ) ≤ dyadic m e := by
      have heq := Option.some.inj hn
      split at heq <;> linarith
    exact_mod_cast hle.trans hmax

end BinaryFormat

/-! ## Nearest integers -/

/-- The integer `m` is nearest to `x`; if there are two, it is the even one. -/
structure NearestNat (x : ℚ) (m : ℕ) : Prop where
  error : 2 * |x - m| ≤ 1
  tie : 2 * |x - m| = 1 → Even m

theorem nearestNat_of_lt {x : ℚ} {m : ℕ} (h : 2 * |x - m| < 1) : NearestNat x m :=
  ⟨h.le, fun htie => absurd htie h.ne⟩

theorem nearestNat_of_even {x : ℚ} {m : ℕ} (h : 2 * |x - m| = 1) (heven : Even m) :
    NearestNat x m :=
  ⟨h.le, fun _ => heven⟩

section Parts

variable {q : ℕ} {t : ℚ}

/-- Less than a half is rounded down. -/
theorem nearestNat_of_low (ht : 0 ≤ t) (hlow : 2 * t < 1) : NearestNat (q + t) q := by
  refine nearestNat_of_lt ?_
  rwa [add_sub_cancel_left, abs_of_nonneg ht]

/-- More than a half is rounded up. -/
theorem nearestNat_of_high (ht : t < 1) (hhigh : 1 < 2 * t) : NearestNat (q + t) (q + 1 : ℕ) := by
  refine nearestNat_of_lt ?_
  rw [Nat.cast_add, Nat.cast_one, add_sub_add_left_eq_sub, abs_of_neg (by linarith)]
  linarith

/-- A half is rounded to the even side. -/
theorem nearestNat_of_half (htie : 2 * t = 1) : NearestNat (q + t) (q + q % 2 : ℕ) := by
  have ht : t = 1 / 2 := by linarith
  rcases Nat.even_or_odd q with heven | hodd
  · rw [Nat.even_iff.1 heven, Nat.add_zero]
    refine nearestNat_of_even ?_ heven
    rw [add_sub_cancel_left, ht]
    norm_num
  · rw [Nat.odd_iff.1 hodd]
    refine nearestNat_of_even ?_ hodd.add_one
    rw [Nat.cast_add, Nat.cast_one, add_sub_add_left_eq_sub, ht]
    norm_num

end Parts

/-- Rounding a quotient gives the nearest integer. -/
theorem nearestNat_roundQuotient (num : ℕ) {den : ℕ} (hden : den ≠ 0) :
    NearestNat (num / den) (roundQuotient num den) := by
  have hpos : (0 : ℚ) < den := by exact_mod_cast Nat.pos_of_ne_zero hden
  have hrest : num % den < den := Nat.mod_lt num (Nat.pos_of_ne_zero hden)
  have hsplit : (num : ℚ) = den * (num / den : ℕ) + (num % den : ℕ) := by
    exact_mod_cast (Nat.div_add_mod num den).symm
  unfold roundQuotient
  generalize num / den = q at hsplit ⊢
  generalize num % den = r at hrest hsplit ⊢
  -- The part of one that is left over is compared with a half.
  obtain ⟨t, ht⟩ : ∃ t : ℚ, r / den = t := ⟨_, rfl⟩
  have hdouble : (2 * r : ℚ) / den = 2 * t := by rw [← ht, mul_div_assoc]
  have hquotient : (num : ℚ) / den = q + t := by
    rw [hsplit, ← ht]
    field_simp
  rw [hquotient]
  dsimp only
  split
  · next hlow =>
    refine nearestNat_of_low (ht ▸ by positivity) ?_
    rw [← hdouble, div_lt_one hpos]
    exact_mod_cast hlow
  · next hlow =>
    split
    · next hhigh =>
      refine nearestNat_of_high ?_ ?_
      · rw [← ht, div_lt_one hpos]
        exact_mod_cast hrest
      · rw [← hdouble, one_lt_div hpos]
        exact_mod_cast hhigh
    · next hhigh =>
      refine nearestNat_of_half ?_
      rw [← hdouble, div_eq_one_iff_eq hpos.ne']
      exact_mod_cast (by omega : 2 * r = den)

namespace NearestNat

variable {x : ℚ} {m : ℕ} (h : NearestNat x m)

include h

/-- No other integer is nearer, and one that is as near leaves an even integer. -/
theorem closest (k : ℤ) : |x - m| ≤ |x - k| ∧ (|x - k| = |x - m| → k = m ∨ Even m) := by
  by_cases hk : k = m
  · rw [hk]
    exact ⟨le_rfl, fun _ => .inl rfl⟩
  · have hapart : (1 : ℚ) ≤ |(k : ℚ) - m| := by
      have hint : (1 : ℤ) ≤ |k - m| := Int.one_le_abs (sub_ne_zero.2 hk)
      exact_mod_cast hint
    have htriangle : |(k : ℚ) - m| ≤ |x - k| + |x - m| := by
      rw [abs_sub_comm x k]
      exact abs_sub_le _ _ _
    have herror := h.error
    refine ⟨by linarith, fun hequal => .inr (h.tie ?_)⟩
    linarith

/-- The same for multiples of a unit. -/
theorem closest_mul {q u : ℚ} (hu : 0 < u) (hx : x = q / u) (k : ℤ) :
    |q - m * u| ≤ |q - k * u| ∧ (|q - k * u| = |q - m * u| → k = m ∨ Even m) := by
  have hscale : ∀ a : ℚ, |q - a * u| = |x - a| * u := by
    intro a
    rw [hx, ← abs_of_pos hu, ← abs_mul, abs_of_pos hu, sub_mul, div_mul_cancel₀ _ hu.ne']
  rw [hscale, hscale]
  refine ⟨mul_le_mul_of_nonneg_right (h.closest k).1 hu.le, fun hequal => (h.closest k).2 ?_⟩
  exact mul_right_cancel₀ hu.ne' hequal

theorem le_of_le {n : ℕ} (hn : (n : ℚ) ≤ x) : n ≤ m := by
  by_contra hlt
  have hstep : (m : ℚ) + 1 ≤ n := by exact_mod_cast Nat.not_le.1 hlt
  have herror := h.error
  rw [abs_of_pos (by linarith)] at herror
  linarith

end NearestNat

/-! ## Last places -/

/-- The logarithm is rounded down. -/
theorem two_zpow_floorLog2_le {num : ℕ} (hnum : num ≠ 0) (den : ℕ) :
    (den : ℚ) * 2 ^ floorLog2 num den ≤ num := by
  unfold floorLog2
  dsimp only
  split
  · next hle =>
    generalize (num.log2 : ℤ) - den.log2 = e at hle
    have hcast : (den : ℚ) * 2 ^ e.toNat ≤ num * 2 ^ (-e).toNat := by exact_mod_cast hle
    rw [← two_zpow_mul e, ← mul_assoc] at hcast
    exact le_of_mul_le_mul_right hcast (by positivity)
  · have hlt : (den : ℚ) < 2 ^ (den.log2 + 1) := by exact_mod_cast Nat.lt_log2_self
    have hle : (2 : ℚ) ^ num.log2 ≤ num := by exact_mod_cast Nat.log2_self_le hnum
    calc (den : ℚ) * 2 ^ ((num.log2 : ℤ) - den.log2 - 1)
        ≤ 2 ^ (den.log2 + 1) * 2 ^ ((num.log2 : ℤ) - den.log2 - 1) := by gcongr
      _ = 2 ^ num.log2 := by
        rw [← zpow_natCast, ← zpow_natCast, ← zpow_add₀ (by norm_num)]
        congr 1
        omega
      _ ≤ num := hle

/-- How many units of the place `e` there are in a quotient. -/
theorem units_eq (num den : ℕ) (e : ℤ) :
    ((num * 2 ^ (-e).toNat : ℕ) : ℚ) / (den * 2 ^ e.toNat : ℕ) = num / den / 2 ^ e := by
  have hplace := two_zpow_mul e
  have hne : (2 : ℚ) ^ (-e).toNat ≠ 0 := by positivity
  push_cast
  rw [← hplace, div_div, ← mul_assoc, mul_div_mul_right _ _ hne]

/-! ## Nearest numbers -/

/-- The number `n` under a sign. -/
def withSign (negative : Bool) (n : ℚ) : ℚ := if negative then -n else n

theorem abs_withSign (negative : Bool) {n : ℚ} (hn : 0 ≤ n) : |withSign negative n| = n := by
  cases negative with
  | false => exact abs_of_nonneg hn
  | true => exact (abs_neg n).trans (abs_of_nonneg hn)

theorem Binary.toRat?_finite (negative : Bool) (m : ℕ) (e : ℤ) :
    (Binary.finite negative m e).toRat? = some (withSign negative (m * 2 ^ e)) := by
  rw [toRat?, dyadic_eq]
  rfl

namespace BinaryFormat

variable (f : BinaryFormat)

/-- The formats in use have at least two bits and some exponents. -/
structure Proper : Prop where
  precision : 2 ≤ f.precision
  exponents : f.least ≤ f.greatest

/-- The rational number is one of the format, if that had no greatest exponent. -/
def HoldsUnbounded (r : ℚ) : Prop :=
  ∃ k e : ℤ, k.natAbs < 2 ^ f.precision ∧ f.least ≤ e ∧ r = k * 2 ^ e

/-- The rational number is one of the format. -/
def Holds (r : ℚ) : Prop :=
  ∃ k e : ℤ, k.natAbs < 2 ^ f.precision ∧ f.least ≤ e ∧ e ≤ f.greatest ∧ r = k * 2 ^ e

/-- The number `m * 2 ^ e` is nearest to `q` in the format without a greatest exponent.  Of two
nearest ones it is the one whose significand is even, where significands have full length if
the exponent is not the least. -/
structure Rounded (q : ℚ) (m : ℕ) (e : ℤ) : Prop where
  significand : m < 2 ^ f.precision
  exponent : f.least ≤ e
  full : e = f.least ∨ 2 ^ (f.precision - 1) ≤ m
  closest : ∀ r, f.HoldsUnbounded r →
    |q - m * 2 ^ e| ≤ |q - r| ∧ (|q - r| = |q - m * 2 ^ e| → r = m * 2 ^ e ∨ Even m)

variable {f}

/-- A significand of full length has the same value one place up, with a bit less. -/
theorem Proper.two_pow_mul (hf : f.Proper) (e : ℤ) :
    (2 : ℚ) ^ f.precision * 2 ^ e = 2 ^ (f.precision - 1) * 2 ^ (e + 1) := by
  have hp := hf.precision
  rw [← zpow_natCast, ← zpow_natCast, ← zpow_add₀ (by norm_num), ← zpow_add₀ (by norm_num)]
  congr 1
  omega

/-- Numbers between the multiples of the last place are too small to be near. -/
theorem closest_of_nearestNat {q : ℚ} {m : ℕ} {e : ℤ} (hm : NearestNat (q / 2 ^ e) m)
    (hfull : e = f.least ∨ (2 : ℚ) ^ (f.precision - 1) ≤ q / 2 ^ e) (hf : f.Proper) :
    ∀ r, f.HoldsUnbounded r →
      |q - m * 2 ^ e| ≤ |q - r| ∧ (|q - r| = |q - m * 2 ^ e| → r = m * 2 ^ e ∨ Even m) := by
  rintro r ⟨k, e', hk, he', rfl⟩
  have hu : (0 : ℚ) < 2 ^ e := by positivity
  rcases le_or_gt e e' with hle | hlt
  · -- The number is a multiple of the last place.
    obtain ⟨n, hn⟩ := Int.eq_ofNat_of_zero_le (sub_nonneg.2 hle)
    have hmultiple : (k : ℚ) * 2 ^ e' = (k * 2 ^ n : ℤ) * 2 ^ e := by
      rw [show e' = n + e by omega, zpow_add₀ (by norm_num), zpow_natCast]
      push_cast
      ring
    rw [hmultiple]
    obtain ⟨hle, htie⟩ := hm.closest_mul hu rfl (k * 2 ^ n)
    refine ⟨hle, fun hequal => (htie hequal).imp_left fun hk => ?_⟩
    rw [hk, Int.cast_natCast]
  · -- The number lies below the least multiple of full length.
    have hbound : (2 : ℚ) ^ (f.precision - 1) * 2 ^ e ≤ q := by
      rw [← le_div_iff₀ hu]
      exact hfull.resolve_left (by omega)
    have hsmall : (k : ℚ) * 2 ^ e' < 2 ^ (f.precision - 1) * 2 ^ e := by
      have hk : (k : ℚ) < 2 ^ f.precision := by
        exact_mod_cast (by omega : k < (2 ^ f.precision : ℕ))
      calc (k : ℚ) * 2 ^ e' < 2 ^ f.precision * 2 ^ e' := by gcongr
        _ ≤ 2 ^ f.precision * 2 ^ (e - 1) := by
          gcongr
          · norm_num
          · omega
        _ = 2 ^ (f.precision - 1) * 2 ^ e := by rw [hf.two_pow_mul, sub_add_cancel]
    have hnear := (hm.closest_mul hu rfl ((2 ^ (f.precision - 1) : ℕ) : ℤ)).1
    push_cast at hnear
    have hfar : |q - m * 2 ^ e| < |q - k * 2 ^ e'| := by
      calc |q - m * 2 ^ e| ≤ |q - 2 ^ (f.precision - 1) * 2 ^ e| := hnear
        _ = q - 2 ^ (f.precision - 1) * 2 ^ e := abs_of_nonneg (sub_nonneg.2 hbound)
        _ < q - k * 2 ^ e' := by linarith
        _ ≤ |q - k * 2 ^ e'| := le_abs_self _
    exact ⟨hfar.le, fun hequal => absurd hequal hfar.ne'⟩

/-- The significand at the last place is of full length, unless that is the least. -/
theorem full_lastPlace (hf : f.Proper) {num den : ℕ} (hnum : num ≠ 0) (hden : den ≠ 0) :
    f.lastPlace num den = f.least ∨
      (2 : ℚ) ^ (f.precision - 1) ≤ num / den / 2 ^ f.lastPlace num den := by
  have hp := hf.precision
  have hlog := two_zpow_floorLog2_le hnum den
  refine (max_choice f.least (floorLog2 num den + 1 - f.precision)).imp_right fun he => ?_
  have hplace : f.lastPlace num den = floorLog2 num den + 1 - f.precision := he
  have hpow : (2 : ℚ) ^ (f.precision - 1) * 2 ^ (floorLog2 num den + 1 - f.precision) =
      2 ^ floorLog2 num den := by
    rw [← zpow_natCast, ← zpow_add₀ (by norm_num)]
    congr 1
    omega
  rw [hplace, le_div_iff₀ (by positivity), hpow, le_div_iff₀ (by positivity), mul_comm]
  exact hlog

/-- A significand that is rounded up to one bit too many takes one place more. -/
theorem Rounded.of_carry (hf : f.Proper) {q : ℚ} {e : ℤ} (hleast : f.least ≤ e)
    (hclosest : ∀ r, f.HoldsUnbounded r → |q - (2 ^ f.precision : ℕ) * 2 ^ e| ≤ |q - r| ∧
      (|q - r| = |q - (2 ^ f.precision : ℕ) * 2 ^ e| →
        r = (2 ^ f.precision : ℕ) * 2 ^ e ∨ Even (2 ^ f.precision))) :
    f.Rounded q (2 ^ (f.precision - 1)) (e + 1) := by
  have hp := hf.precision
  have hvalue :
      ((2 ^ f.precision : ℕ) : ℚ) * 2 ^ e = (2 ^ (f.precision - 1) : ℕ) * 2 ^ (e + 1) := by
    push_cast
    exact hf.two_pow_mul e
  refine ⟨Nat.pow_lt_pow_right (by decide) (by omega), by omega, .inr le_rfl, fun r hr => ?_⟩
  rw [← hvalue]
  refine ⟨(hclosest r hr).1, fun hequal => ((hclosest r hr).2 hequal).imp_right fun _ => ?_⟩
  exact (Nat.even_pow' (by omega)).2 even_two

/-- What rounding gives before the exponent is compared with the greatest one. -/
theorem exists_rounded (hf : f.Proper) (negative : Bool) (num : ℕ) {den : ℕ} (hden : den ≠ 0) :
    ∃ m e, f.round negative num den = f.bounded negative m e ∧ f.Rounded (num / den) m e := by
  unfold round
  split
  · next hzero =>
    refine ⟨0, f.least, ?_, Nat.two_pow_pos _, le_rfl, .inl rfl, fun r _ => ?_⟩
    · rw [bounded, if_neg (not_lt.2 hf.exponents)]
    · rw [hzero]
      simp
  · next hnum =>
    dsimp only
    obtain ⟨e, he⟩ : ∃ e, f.lastPlace num den = e := ⟨_, rfl⟩
    have hle := significand_le (f := f) num hden
    have hfull := full_lastPlace hf hnum hden
    have hleast : f.least ≤ e := he ▸ le_max_left _ _
    rw [he] at hle hfull ⊢
    have hunits : den * 2 ^ e.toNat ≠ 0 := by positivity
    have hnearest := nearestNat_roundQuotient (num * 2 ^ (-e).toNat) hunits
    rw [units_eq] at hnearest
    generalize roundQuotient (num * 2 ^ (-e).toNat) (den * 2 ^ e.toNat) = m at hle hnearest ⊢
    have hclosest := closest_of_nearestNat hnearest hfull hf
    split
    · next hcarry =>
      subst hcarry
      exact ⟨_, _, rfl, .of_carry hf hleast hclosest⟩
    · next hcarry =>
      refine ⟨m, e, rfl, lt_of_le_of_ne hle hcarry, hleast, ?_, hclosest⟩
      exact hfull.imp_right fun h => hnearest.le_of_le (by exact_mod_cast h)

/-! ## Overflow -/

variable (f)

/-- From this number on, which lies half a place above the largest one, numbers become infinite. -/
def threshold : ℚ := dyadic (2 ^ (f.precision + 1) - 1) (f.greatest - 1)

/-- The number that would follow the largest one. -/
def successor : ℚ := 2 ^ f.precision * 2 ^ f.greatest

variable {f}

theorem maximum_eq : f.maximum = (2 ^ f.precision - 1) * 2 ^ f.greatest := by
  rw [maximum, dyadic_eq, Nat.cast_sub Nat.one_le_two_pow]
  push_cast
  rfl

/-- The threshold lies in the middle between the largest number and its successor. -/
theorem threshold_eq : 2 * f.threshold = f.maximum + f.successor := by
  have hplace : (2 : ℚ) ^ f.greatest = 2 * 2 ^ (f.greatest - 1) := by
    rw [← zpow_one_add₀ (by norm_num), add_sub_cancel]
  rw [threshold, maximum_eq, successor, dyadic_eq, Nat.cast_sub Nat.one_le_two_pow, hplace]
  push_cast
  ring

theorem maximum_lt_successor : f.maximum < f.successor := by
  rw [maximum_eq, successor]
  gcongr
  exact sub_one_lt _

/-- The largest number does not become infinite. -/
theorem maximum_lt_threshold : f.maximum < f.threshold := by
  have hmiddle := threshold_eq (f := f)
  have hlt := maximum_lt_successor (f := f)
  linarith

theorem Proper.holds_maximum (hf : f.Proper) : f.Holds f.maximum := by
  refine ⟨(2 ^ f.precision - 1 : ℕ), f.greatest, ?_, hf.exponents, le_rfl, ?_⟩
  · rw [Int.natAbs_natCast]
    exact Nat.sub_lt (Nat.two_pow_pos _) Nat.one_pos
  · rw [maximum, dyadic_eq, Int.cast_natCast]

theorem Proper.holdsUnbounded_successor (hf : f.Proper) : f.HoldsUnbounded f.successor := by
  have hp := hf.precision
  refine ⟨(2 ^ (f.precision - 1) : ℕ), f.greatest + 1, ?_, by linarith [hf.exponents], ?_⟩
  · rw [Int.natAbs_natCast]
    exact Nat.pow_lt_pow_right (by decide) (by omega)
  · rw [successor, hf.two_pow_mul, Int.cast_natCast, Nat.cast_pow, Nat.cast_ofNat]

theorem Holds.unbounded {r : ℚ} (h : f.Holds r) : f.HoldsUnbounded r := by
  obtain ⟨k, e, hk, hleast, -, hr⟩ := h
  exact ⟨k, e, hk, hleast, hr⟩

section Bounds

variable {m : ℕ} {e : ℤ} (hm : m < 2 ^ f.precision) (he : e ≤ f.greatest)

include hm he

theorem le_maximum : (m : ℚ) * 2 ^ e ≤ f.maximum := by
  have hm : (m : ℚ) ≤ 2 ^ f.precision - 1 := by
    rw [le_sub_iff_add_le]
    exact_mod_cast hm
  have hplace : (2 : ℚ) ^ e ≤ 2 ^ f.greatest := zpow_le_zpow_right₀ (by norm_num) he
  have hm0 : (0 : ℚ) ≤ m := Nat.cast_nonneg m
  rw [maximum_eq]
  exact mul_le_mul hm hplace (by positivity) (hm0.trans hm)

/-- The significand of the largest number is odd. -/
theorem not_even_of_eq_maximum (hf : f.Proper) (h : (m : ℚ) * 2 ^ e = f.maximum) : ¬ Even m := by
  have hlast : m = 2 ^ f.precision - 1 := by
    by_contra hne
    have hnext := le_maximum (by omega : m + 1 < 2 ^ f.precision) he
    have hplace : (0 : ℚ) < 2 ^ e := by positivity
    rw [Nat.cast_add_one, add_one_mul] at hnext
    have hlt : (m : ℚ) * 2 ^ e < f.maximum := by linarith
    exact hlt.ne h
  have heven : Even (2 ^ f.precision) := (Nat.even_pow' (by linarith [hf.precision])).2 even_two
  rw [hlast, Nat.not_even_iff_odd]
  exact Nat.Even.sub_odd Nat.one_le_two_pow heven odd_one

end Bounds

/-- The exponent stays within the format exactly below the threshold. -/
theorem Rounded.exponent_le_iff (hf : f.Proper) {q : ℚ} {m : ℕ} {e : ℤ} (h : f.Rounded q m e) :
    e ≤ f.greatest ↔ q < f.threshold := by
  have hmiddle := threshold_eq (f := f)
  have hsuccessor := maximum_lt_successor (f := f)
  constructor
  · -- At the threshold the successor is as near as the largest number, and that is odd.
    intro he
    have hmaximum := le_maximum h.significand he
    obtain ⟨hclosest, htie⟩ := h.closest _ hf.holdsUnbounded_successor
    by_contra hq
    have hvalue : |q - m * 2 ^ e| = q - m * 2 ^ e := abs_of_nonneg (by linarith)
    rw [hvalue] at hclosest htie
    have hbelow : q < f.successor := by
      by_contra hge
      rw [abs_of_nonneg (by linarith)] at hclosest
      linarith
    rw [abs_of_neg (by linarith)] at hclosest htie
    rcases htie (by linarith) with heq | heven
    · linarith
    · exact not_even_of_eq_maximum h.significand he hf (by linarith) heven
  · -- Below the threshold the largest number is nearer than its successor and all that follow.
    intro hq
    by_contra he
    have hfull := h.full.resolve_left (by linarith [hf.exponents, h.exponent])
    have habove : f.successor ≤ m * 2 ^ e := by
      have hm : (2 : ℚ) ^ (f.precision - 1) ≤ m := by exact_mod_cast hfull
      have hplace : (2 : ℚ) ^ (f.greatest + 1) ≤ 2 ^ e :=
        zpow_le_zpow_right₀ (by norm_num) (by omega)
      rw [successor, hf.two_pow_mul]
      exact mul_le_mul hm hplace (by positivity) (by positivity)
    have hclosest := (h.closest _ hf.holds_maximum.unbounded).1
    rw [abs_of_neg (by linarith)] at hclosest
    rcases abs_cases (q - f.maximum) with ⟨habs, -⟩ | ⟨habs, -⟩ <;> linarith

/-! ## Numbers of a format -/

variable (f)

/-- The finite number `x` is the one of the format that is nearest to `q`.  Of two nearest ones it
is the one whose significand is even, where significands have full length if the exponent is
not the least. -/
def Nearest (q : ℚ) : Binary → Prop
  | .finite negative m e =>
    (m < 2 ^ f.precision ∧ f.least ≤ e ∧ e ≤ f.greatest ∧
      (e = f.least ∨ 2 ^ (f.precision - 1) ≤ m)) ∧
    ∀ r, f.Holds r → |q - withSign negative (m * 2 ^ e)| ≤ |q - r| ∧
      (|q - r| = |q - withSign negative (m * 2 ^ e)| → r = withSign negative (m * 2 ^ e) ∨ Even m)
  | .infinite _ | .nan => False

/-- The number `x` is what `q` is rounded to: the nearest number of the format, or an infinity from
the threshold on. -/
def RoundsTo (q : ℚ) (x : Binary) : Prop :=
  |q| < f.threshold ∧ f.Nearest q x ∨ f.threshold ≤ |q| ∧ x = .infinite (q < 0)

variable {f}

theorem Holds.neg {r : ℚ} (h : f.Holds r) : f.Holds (-r) := by
  obtain ⟨k, e, hk, hleast, hgreatest, rfl⟩ := h
  refine ⟨-k, e, by rwa [Int.natAbs_neg], hleast, hgreatest, ?_⟩
  push_cast
  ring

theorem Rounded.nearest {q : ℚ} {m : ℕ} {e : ℤ} (h : f.Rounded q m e) (he : e ≤ f.greatest)
    (negative : Bool) : f.Nearest (withSign negative q) (.finite negative m e) := by
  refine ⟨⟨h.significand, h.exponent, he, h.full⟩, fun r hr => ?_⟩
  cases negative with
  | false => exact h.closest r hr.unbounded
  | true =>
    -- Distances from `-q` are those of the opposite numbers from `q`.
    have hflip : ∀ a : ℚ, |-q - a| = |q - -a| := by
      intro a
      rw [← abs_neg, neg_sub, sub_neg_eq_add, sub_neg_eq_add, add_comm]
    obtain ⟨hclosest, htie⟩ := h.closest (-r) hr.neg.unbounded
    simp only [withSign, if_true, hflip, neg_neg]
    exact ⟨hclosest, fun hequal => (htie hequal).imp_left neg_eq_iff_eq_neg.1⟩

theorem maximum_nonneg : 0 ≤ f.maximum := by
  rw [maximum, dyadic_eq]
  positivity

/-- Rounding a quotient under a sign gives the nearest number of the format. -/
theorem roundsTo_round (hf : f.Proper) (negative : Bool) (num : ℕ) {den : ℕ} (hden : den ≠ 0) :
    f.RoundsTo (withSign negative (num / den)) (f.round negative num den) := by
  have hq : (0 : ℚ) ≤ num / den := by positivity
  obtain ⟨m, e, hround, hrounded⟩ := exists_rounded hf negative num hden
  have hexponent := hrounded.exponent_le_iff hf
  rw [hround, RoundsTo, abs_withSign negative hq, bounded]
  split
  · next he =>
    have hlarge : f.threshold ≤ (num : ℚ) / den := by
      by_contra hlt
      exact absurd (hexponent.2 (not_le.1 hlt)) (not_le.2 he)
    refine .inr ⟨hlarge, ?_⟩
    have hpos : (0 : ℚ) < num / den :=
      (maximum_nonneg.trans_lt maximum_lt_threshold).trans_le hlarge
    cases negative with
    | false => simp [withSign, hpos.le]
    | true => simp [withSign, hpos]
  · next he =>
    have he := not_lt.1 he
    exact .inl ⟨hexponent.1 he, hrounded.nearest he negative⟩

section Finite

variable {q : ℚ} {x : Binary} (h : f.Nearest q x)

include h

/-- A number that is nearest to anything is finite and no greater than the largest one. -/
theorem Nearest.exists_value : ∃ v, x.toRat? = some v ∧ |v| ≤ f.maximum := by
  cases x with
  | infinite | nan => exact h.elim
  | finite negative m e =>
    obtain ⟨⟨hm, -, he, -⟩, -⟩ := h
    refine ⟨_, Binary.toRat?_finite negative m e, ?_⟩
    rw [abs_withSign negative (by positivity)]
    exact le_maximum hm he

theorem Nearest.isFinite : x.isFinite = true := by
  cases x with
  | infinite | nan => exact h.elim
  | finite negative m e => rfl

/-- A number of the format is nearest to itself. -/
theorem Nearest.self {v : ℚ} (hv : x.toRat? = some v) : f.Nearest v x := by
  cases x with
  | infinite | nan => exact h.elim
  | finite negative m e =>
    rw [Binary.toRat?_finite] at hv
    obtain rfl := Option.some.inj hv
    refine ⟨h.1, fun r _ => ?_⟩
    rw [sub_self, abs_zero]
    refine ⟨abs_nonneg _, fun hequal => .inl ?_⟩
    exact (sub_eq_zero.1 (abs_eq_zero.1 hequal)).symm

end Finite

/-! ## Conversion -/

/-- A number of another format is converted to the nearest one. -/
theorem roundsTo_convert (hf : f.Proper) {x : Binary} {v : ℚ} (hv : x.toRat? = some v) :
    f.RoundsTo v (f.convert x) := by
  cases x with
  | infinite | nan => cases hv
  | finite negative m e =>
    rw [Binary.toRat?_finite] at hv
    obtain rfl := Option.some.inj hv
    have hround := roundsTo_round hf negative (m * 2 ^ e.toNat) (Nat.two_pow_pos (-e).toNat).ne'
    have hvalue : ((m * 2 ^ e.toNat : ℕ) : ℚ) / (2 ^ (-e).toNat : ℕ) = m * 2 ^ e := by
      push_cast
      rw [← two_zpow_mul e, ← mul_assoc, mul_div_cancel_right₀ _ (by positivity)]
    rwa [hvalue] at hround

/-- A number that does not exceed the largest one of the format is not converted to an infinity. -/
theorem nearest_convert (hf : f.Proper) {x : Binary} {v : ℚ} (hv : x.toRat? = some v)
    (hle : |v| ≤ f.maximum) : f.Nearest v (f.convert x) := by
  rcases roundsTo_convert hf hv with ⟨-, hnearest⟩ | ⟨hlarge, -⟩
  · exact hnearest
  · exact absurd (hle.trans_lt maximum_lt_threshold) (not_lt.2 hlarge)

/-! ## Numbers that need no rounding -/

/-- A number that is one of the format is rounded to itself. -/
theorem Nearest.toRat?_of_holds {q : ℚ} {x : Binary} (h : f.Nearest q x) (hq : f.Holds q) :
    x.toRat? = some q := by
  cases x with
  | infinite | nan => exact h.elim
  | finite negative m e =>
    have hclosest := (h.2 q hq).1
    rw [sub_self, abs_zero] at hclosest
    have hzero := abs_eq_zero.1 (le_antisymm hclosest (abs_nonneg _))
    rw [Binary.toRat?_finite, ← sub_eq_zero.1 hzero]

theorem Nearest.holds {q v : ℚ} {x : Binary} (h : f.Nearest q x) (hv : x.toRat? = some v) :
    f.Holds v := by
  cases x with
  | infinite | nan => exact h.elim
  | finite negative m e =>
    obtain ⟨⟨hm, hleast, hgreatest, -⟩, -⟩ := h
    have hmagnitude : f.Holds (m * 2 ^ e) := ⟨m, e, hm, hleast, hgreatest, by push_cast; rfl⟩
    rw [Binary.toRat?_finite] at hv
    obtain rfl := Option.some.inj hv
    cases negative with
    | false => exact hmagnitude
    | true => exact hmagnitude.neg

theorem Holds.abs_le_maximum {q : ℚ} (h : f.Holds q) : |q| ≤ f.maximum := by
  obtain ⟨k, e, hk, -, hgreatest, rfl⟩ := h
  rw [abs_mul, abs_of_pos (by positivity : (0 : ℚ) < 2 ^ e), ← Int.cast_abs, Int.abs_eq_natAbs,
    Int.cast_natCast]
  exact le_maximum hk hgreatest

theorem RoundsTo.toRat?_of_holds {q : ℚ} {x : Binary} (h : f.RoundsTo q x) (hq : f.Holds q) :
    x.toRat? = some q := by
  rcases h with ⟨-, hnearest⟩ | ⟨hlarge, -⟩
  · exact hnearest.toRat?_of_holds hq
  · exact absurd (hq.abs_le_maximum.trans_lt maximum_lt_threshold) (not_lt.2 hlarge)

/-- What is converted to a format is a number of it. -/
theorem holds_of_convert (hf : f.Proper) {x : Binary} {v : ℚ}
    (hv : (f.convert x).toRat? = some v) : f.Holds v := by
  cases x with
  | infinite | nan => cases hv
  | finite negative m e =>
    rcases roundsTo_convert hf (Binary.toRat?_finite negative m e) with ⟨-, hnearest⟩ | ⟨-, hx⟩
    · exact hnearest.holds hv
    · rw [hx] at hv
      cases hv

/-- The numbers of a format are numbers of every wider one. -/
theorem Holds.widen {g : BinaryFormat} {q : ℚ} (h : f.Holds q)
    (hprecision : f.precision ≤ g.precision) (hleast : g.least ≤ f.least)
    (hgreatest : f.greatest ≤ g.greatest) : g.Holds q := by
  obtain ⟨k, e, hk, hl, hg, hq⟩ := h
  exact ⟨k, e, hk.trans_le (Nat.pow_le_pow_right (by decide) hprecision), hleast.trans hl,
    hg.trans hgreatest, hq⟩

/-- The integer part of a number of the format is one too, since the format has the last place of
the integers. -/
theorem Holds.floor {q : ℚ} (h : f.Holds q) (hq : 0 ≤ q) (hleast : f.least ≤ 0)
    (hgreatest : 0 ≤ f.greatest) : f.Holds (⌊q⌋ : ℚ) := by
  obtain ⟨k, e, hk, hl, hg, rfl⟩ := h
  rcases le_or_gt 0 e with he | he
  · obtain ⟨n, rfl⟩ := Int.eq_ofNat_of_zero_le he
    refine ⟨k, n, hk, hl, hg, ?_⟩
    have hint : (k : ℚ) * 2 ^ (n : ℤ) = ((k * 2 ^ n : ℤ) : ℚ) := by
      push_cast
      rw [zpow_natCast]
    rw [hint, Int.floor_intCast]
  · refine ⟨⌊(k : ℚ) * 2 ^ e⌋, 0, ?_, hleast, hgreatest, by simp⟩
    have hpow : (2 : ℚ) ^ e ≤ 1 := zpow_le_one_of_nonpos₀ (by norm_num) he.le
    have hk0 : (0 : ℚ) ≤ k := nonneg_of_mul_nonneg_left hq (by positivity)
    have hle : ⌊(k : ℚ) * 2 ^ e⌋ ≤ k := by
      rw [Int.floor_le_iff]
      calc (k : ℚ) * 2 ^ e ≤ k * 1 := by gcongr
        _ < k + 1 := by linarith
    have hfloor : 0 ≤ ⌊(k : ℚ) * 2 ^ e⌋ := Int.floor_nonneg.2 hq
    omega

end BinaryFormat

end ExprFront.Number
