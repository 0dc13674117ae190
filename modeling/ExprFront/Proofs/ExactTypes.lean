import ExprFront.Proofs.IntegerTypes

/-!
# Exact types

Decimals and fractions lose nothing of a literal, and their texts lose nothing of them.

* The text of a finite decimal, positional or scientific, is a written numeral with the same
  sign, coefficient and scale (`Decimal.exists_numeral`), so the decimal of a numeral is read back
  from its text (`Decimal.read_text`).
* A tidy literal with a moderate exponent is its own text (`Decimal.text_literal`).
* A fraction that can be written is read back from its text (`Converter.readFraction_text`).
* Hence every value that an exact type makes of a literal is read back from its text, if it can be
  written (`NamedType.converter_text`).

Main result: `scan_exact`.
-/

namespace ExprFront

open Number

namespace Number

/-! ## Texts of decimals -/

/-- A point among the digits, or in front of them, changes neither the number that the digits
denote nor how many of them follow the point. -/
theorem pointed_eq {ds : List Char} (hds : IsDigits ds) {place : Int} (hplace : place ≤ ds.length) :
    ∃ whole fraction, IsDigits whole ∧ (∀ c ∈ fraction, c.isDigit = true) ∧
      digitsValue (whole ++ fraction) = digitsValue ds ∧
      (fraction.length : Int) = ds.length - place ∧
      Decimal.pointed ds place = whole ++ pointedFraction fraction := by
  rw [Decimal.pointed]
  split
  · next hfront =>
    let zeros := List.replicate (-place).toNat '0'
    have hne : zeros ++ ds ≠ [] := List.append_ne_nil_of_right_ne_nil _ hds.1
    have hlength : (zeros ++ ds).length = (-place).toNat + ds.length := by
      rw [List.length_append, List.length_replicate]
    refine ⟨['0'], zeros ++ ds, ⟨by simp, by simp⟩, ?_, ?_, by omega, ?_⟩
    · refine List.forall_mem_append.2 ⟨fun c hc => ?_, hds.2⟩
      rw [List.eq_of_mem_replicate hc]
      rfl
    · exact digitsValue_replicate_zero ((-place).toNat + 1) ds
    · rw [pointedFraction, if_neg hne]
      rfl
  · next hfront =>
    split
    · next hend =>
      have hnone : (place - ds.length).toNat = 0 := by omega
      refine ⟨ds, [], hds, List.forall_mem_nil _, by rw [List.append_nil], ?_, ?_⟩
      · rw [List.length_nil]
        omega
      · rw [hnone]
        rfl
    · next hmiddle =>
      have htake : ds.take place.toNat ≠ [] := by
        intro hnil
        have hlength := congrArg List.length hnil
        rw [List.length_take, List.length_nil] at hlength
        omega
      have hdrop : (ds.drop place.toNat).length = ds.length - place.toNat := List.length_drop
      have hne : ds.drop place.toNat ≠ [] := by
        intro hnil
        rw [hnil, List.length_nil] at hdrop
        omega
      refine ⟨ds.take place.toNat, ds.drop place.toNat,
        ⟨htake, fun c hc => hds.2 c (List.mem_of_mem_take hc)⟩,
        fun c hc => hds.2 c (List.mem_of_mem_drop hc), by rw [List.take_append_drop], by omega, ?_⟩
      rw [pointedFraction, if_neg hne]

/-- The exponent of a power of ten, which is not written if it is zero. -/
def Exponent.ofInt (k : Int) : Exponent := if k = 0 then .none else ⟨k < 0, digitsOf k.natAbs⟩

namespace Exponent

theorem value_ofInt (k : Int) : (ofInt k).value = k := by
  rw [ofInt]
  split
  · next hk => exact hk.symm
  · have hvalue : (⟨decide (k < 0), digitsOf k.natAbs⟩ : Exponent).value =
        signed (decide (k < 0)) (digitsValue (digitsOf k.natAbs)) := rfl
    rw [hvalue, digitsValue_digitsOf, signed_natAbs]

theorem wellFormed_ofInt (k : Int) : ofInt k = .none ∨ IsDigits (ofInt k).digits := by
  rw [ofInt]
  split
  · exact .inl rfl
  · exact .inr (isDigits_digitsOf _)

theorem spelled_ofInt (k : Int) :
    (ofInt k).spelled = if k = 0 then [] else Decimal.exponentText k := by
  rw [ofInt]
  split
  · rfl
  · rw [spelled, if_neg (isDigits_digitsOf _).1, Decimal.exponentText]
    simp only [decide_eq_true_eq]

end Exponent

namespace Decimal

/-- The digits of a decimal are written with a point and an exponent that make up for each
other. -/
theorem magnitudeText_eq (m : Nat) (e : Int) :
    ∃ place k : Int, place ≤ (digitsOf m).length ∧ place + k = e + (digitsOf m).length ∧
      magnitudeText m e = pointed (digitsOf m) place ++ (Exponent.ofInt k).spelled := by
  have hpos : 0 < (digitsOf m).length := List.length_pos_iff.2 (isDigits_digitsOf m).1
  rw [magnitudeText]
  split
  · next hplain =>
    refine ⟨e + (digitsOf m).length, 0, by omega, by omega, ?_⟩
    rw [Exponent.spelled_ofInt, if_pos rfl, List.append_nil]
  · refine ⟨1, e + (digitsOf m).length - 1, by omega, by omega, ?_⟩
    rw [Exponent.spelled_ofInt]
    by_cases hone : e + (digitsOf m).length = 1
    · rw [if_pos hone, if_pos (by omega)]
    · rw [if_neg hone, if_neg (by omega)]

/-- The text of a decimal is a written numeral with the same sign, coefficient and scale. -/
theorem exists_numeral (negative : Bool) (m : Nat) (e : Int) :
    ∃ n : Numeral, n.WellFormed ∧ n.negative = negative ∧ n.coefficient = m ∧ n.scale = e ∧
      (finite negative m e).text = String.ofList n.spelled := by
  obtain ⟨place, k, hplace, hk, htext⟩ := magnitudeText_eq m e
  obtain ⟨whole, fraction, hwhole, hfraction, hvalue, hlength, hpointed⟩ :=
    pointed_eq (isDigits_digitsOf m) hplace
  let n : Numeral := ⟨negative, whole, fraction, .ofInt k⟩
  have hscale : n.scale = k - fraction.length := congrArg (· - _) (Exponent.value_ofInt k)
  have hsigned : (finite negative m e).text =
      String.ofList ((if negative then ['-'] else []) ++ magnitudeText m e) := by
    cases negative <;> rfl
  refine ⟨n, ⟨hwhole, hfraction, Exponent.wellFormed_ofInt k⟩, rfl, ?_, by omega, ?_⟩
  · exact hvalue.trans (digitsValue_digitsOf m)
  · rw [hsigned, htext, hpointed, List.append_assoc]
    rfl

/-- What the decimal of a numeral depends on. -/
theorem ofNumeral_congr {n n' : Numeral} (hnegative : n.negative = n'.negative)
    (hcoefficient : n.coefficient = n'.coefficient) (hscale : n.scale = n'.scale) :
    ofNumeral n = ofNumeral n' := by
  rw [ofNumeral, ofNumeral, hnegative, hcoefficient, hscale]

theorem eq_finite_of_ofNumeral {n : Numeral} {d : Decimal} (h : ofNumeral n = .ok d) :
    d = finite n.negative n.coefficient n.scale := by
  rw [ofNumeral] at h
  split at h
  · cases h
  · cases h
    rfl

/-- The decimal of a numeral is read back from its text. -/
theorem read_text {n : Numeral} {d : Decimal} (h : ofNumeral n = .ok d) :
    Decimal.read d.text = .ok d := by
  obtain rfl := eq_finite_of_ofNumeral h
  obtain ⟨n', hwellFormed, hnegative, hcoefficient, hscale, htext⟩ :=
    exists_numeral n.negative n.coefficient n.scale
  rw [htext, read_spelled hwellFormed, ofNumeral_congr hnegative hcoefficient hscale, h]

/-- The point goes back to where it was written. -/
theorem pointed_tidied {whole fraction : List Char} (hwhole : IsDigits whole)
    (htidy : tidied whole = whole) :
    pointed (tidied (whole ++ fraction))
      ((tidied (whole ++ fraction)).length - fraction.length) =
      whole ++ pointedFraction fraction := by
  rcases tidy_cases hwhole htidy with rfl | ⟨d, ds, rfl, hd⟩
  · cases fraction with
    | nil => rfl
    | cons c cs =>
      have hle := length_tidied_le (c :: cs)
      have hzeros := replicate_tidied (c :: cs)
      have hdrop : tidied (['0'] ++ c :: cs) = tidied (c :: cs) := by
        rw [List.singleton_append, tidied]
      have hcount : (-((tidied (c :: cs)).length - (c :: cs).length : Int)).toNat =
          (c :: cs).length - (tidied (c :: cs)).length := by omega
      rw [hdrop, pointed, if_pos (by omega), hcount, List.cons_append, List.cons_append, hzeros]
      rfl
  · have hlength : ((d :: ds ++ fraction).length - fraction.length : Int) = (d :: ds).length := by
      rw [List.length_append]
      omega
    rw [List.cons_append, tidied_of_ne hd, ← List.cons_append, hlength, pointed,
      if_neg (by rw [List.length_cons]; omega), Int.toNat_natCast]
    by_cases hnil : fraction = []
    · rw [hnil, if_pos (by simp)]
      simp [pointedFraction]
    · have hpos : 0 < fraction.length := List.length_pos_iff.2 hnil
      rw [if_neg (by rw [List.length_append]; omega), List.take_left, List.drop_left,
        pointedFraction, if_neg hnil]

/-- A tidy literal is the text of its decimal, if its leading digit stands at most six places
behind the point. -/
theorem text_literal {n : Numeral} (h : n.WellFormed) (hwritten : n.written = .none)
    (htidy : tidied n.whole = n.whole)
    (hadjusted : -6 ≤ ((tidied (n.whole ++ n.fraction)).length - 1 - n.fraction.length : Int)) :
    (finite n.negative n.coefficient (-n.fraction.length)).text = String.ofList n.spelled := by
  have hdigits : digitsOf n.coefficient = tidied (n.whole ++ n.fraction) :=
    digitsOf_digitsValue h.isDigits
  have hplace : (-n.fraction.length + (tidied (n.whole ++ n.fraction)).length : Int) =
      (tidied (n.whole ++ n.fraction)).length - n.fraction.length := by omega
  have hmagnitude : magnitudeText n.coefficient (-n.fraction.length) =
      n.whole ++ pointedFraction n.fraction := by
    rw [magnitudeText, hdigits, if_pos ⟨by omega, by omega⟩, hplace,
      pointed_tidied h.whole htidy]
  rw [Numeral.spelled_of_none hwritten, ← hmagnitude]
  cases n.negative <;> rfl

end Decimal

end Number

/-! ## Texts of fractions -/

namespace Converter

/-- A numerator and a denominator are no numeral. -/
theorem read?_quotient (negative : Bool) {above : List Char} (habove : IsDigits above)
    (below : List Char) :
    Numeral.read? ((if negative then ['-'] else []) ++ (above ++ '/' :: below)) = none := by
  have hslash : ('/' :: below).takeWhile Char.isDigit = [] := rfl
  have hfraction : takeFraction ('/' :: below) = ([], '/' :: below) := rfl
  have hexponent : takeExponent ('/' :: below) = (.none, '/' :: below) := rfl
  have hne : above.isEmpty = false := List.isEmpty_eq_false_iff.2 habove.1
  simp only [Numeral.read?, Numeral.take?, takeSign_signed negative habove,
    habove.takeWhile_append hslash, habove.dropWhile_append hslash, hfraction, hexponent, hne,
    Bool.false_and, Bool.false_eq_true, if_false]

/-- A numerator and a denominator are read as their quotient. -/
theorem fractionOfText_quotient (s : String) (negative : Bool) {above below : List Char}
    (habove : IsDigits above) (hbelow : IsDigits below) (hnum : above.length ≤ maxDigits)
    (hden : below.length ≤ maxDigits) :
    fractionOfText s ((if negative then ['-'] else []) ++ (above ++ '/' :: below)) =
      quotient (signed negative (digitsValue above)) (digitsValue below) := by
  have hslash : ('/' :: below).takeWhile Char.isDigit = [] := rfl
  obtain ⟨d, ds, hcons⟩ := List.exists_cons_of_ne_nil habove.1
  have hdigits : (below.isEmpty || !below.all Char.isDigit) = false := by
    rw [List.isEmpty_eq_false_iff.2 hbelow.1, List.all_eq_true.2 hbelow.2]
    rfl
  have hread : boundedDigits (d :: ds) = .ok (digitsValue above) := by
    rw [← hcons, boundedDigits_of_le hnum]
  simp only [fractionOfText, takeSign_signed negative habove, habove.takeWhile_append hslash,
    habove.dropWhile_append hslash]
  simp only [hcons, hdigits, hread, boundedDigits_of_le hden, bind, Except.bind, signed,
    Bool.false_eq_true, if_false]

theorem length_of_shortInteger {n : Int} (h : Value.shortInteger n = true) :
    (digitsOf n.natAbs).length ≤ maxDigits := by
  rw [Value.shortInteger, decide_eq_true_iff] at h
  exact (length_digitsOf_le (by decide)).2 h

/-- A fraction that can be written is read back from its text. -/
theorem readFraction_text {q : Rat} (h : (Value.fraction q).isPrintable = true) :
    readFraction (Value.fractionText q) = .ok q := by
  rw [Value.isPrintable, Bool.and_eq_true_iff] at h
  obtain ⟨hnum, hden⟩ := h
  have hnumLength := length_of_shortInteger hnum
  have hdenLength : (digitsOf q.den).length ≤ maxDigits := length_of_shortInteger hden
  have hvalue : signed (decide (q.num < 0)) (digitsValue (digitsOf q.num.natAbs)) = q.num := by
    rw [digitsValue_digitsOf, signed_natAbs]
  rw [Value.fractionText, ← Numeral.spelled_ofInt]
  split
  · next hone =>
    have hcoefficient : (Numeral.ofInt q.num).coefficient = q.num.natAbs := by
      have happend : (Numeral.ofInt q.num).coefficient =
        digitsValue (digitsOf q.num.natAbs ++ []) := rfl
      rw [happend, List.append_nil, digitsValue_digitsOf]
    rw [readFraction_spelled (Numeral.wellFormed_ofInt _),
      fractionOfNumeral_literal rfl hnumLength (Nat.zero_le _), hcoefficient]
    have hinteger : signed (Numeral.ofInt q.num).negative q.num.natAbs = q.num := signed_natAbs _
    have hpow : 10 ^ (Numeral.ofInt q.num).fraction.length = q.den := hone.symm
    rw [hinteger, hpow, Rat.mkRat_self]
  · have hchars : String.ofList (Numeral.ofInt q.num).spelled ++ "/" ++ toString q.den =
        String.ofList ((if decide (q.num < 0) then ['-'] else []) ++
          (digitsOf q.num.natAbs ++ '/' :: digitsOf q.den)) := by
      apply String.toList_injective
      rw [Numeral.spelled_of_none rfl]
      simp [Numeral.ofInt, pointedFraction, digitsOf, Nat.toString_eq_repr, Nat.toList_repr]
    have hplain : Plain ((if decide (q.num < 0) then ['-'] else []) ++
        (digitsOf q.num.natAbs ++ '/' :: digitsOf q.den)) :=
      (plain_sign _).append ((plain_digits (isDigits_digitsOf _).2).append
        (.cons rfl (plain_digits (isDigits_digitsOf _).2)))
    rw [hchars, readFraction_of_read?_none hplain (read?_quotient _ (isDigits_digitsOf _) _),
      fractionOfText_quotient _ _ (isDigits_digitsOf _) (isDigits_digitsOf _) hnumLength hdenLength,
      hvalue, digitsValue_digitsOf, quotient, if_neg q.den_nz, Rat.mkRat_self]

end Converter

/-! ## Values of exact types -/

/-- The types whose values are written without loss. -/
def NamedType.IsExact : NamedType → Prop
  | .float | .fixedFloat _ => False
  | .integer | .fixedInt _ | .decimal | .fraction => True

theorem Converter.decimal_of_read {s : String} {d : Decimal} (h : Decimal.read s = .ok d) :
    decimal s = .ok (.decimal d) := by
  simp only [decimal, readDecimal, h, Except.map]

theorem Converter.fraction_of_read {s : String} {q : Rat} (h : readFraction s = .ok q) :
    fraction s = .ok (.fraction q) := by
  simp only [fraction, h, Except.map]

/-- What an exact type makes of a literal: an integer that the type holds, the decimal of the
numeral, or a fraction. -/
theorem NamedType.IsExact.cases {t : NamedType} (ht : t.IsExact) {text : List Char}
    (htext : IsNumeral text) {v : Value} (h : t.converter (String.ofList text) = .ok v) :
    (∃ value range n, t.Integral value range ∧ v = value n) ∨
      (t = .decimal ∧ ∃ d, Decimal.ofNumeral (Numeral.ofLiteral text) = .ok d ∧ v = .decimal d) ∨
      (t = .fraction ∧ ∃ q, v = .fraction q) := by
  cases t with
  | float => exact ht.elim
  | fixedFloat f => exact ht.elim
  | integer =>
    obtain ⟨n, -, -, hv⟩ := Integral.unbounded.exists_of_converter h
    exact .inl ⟨_, _, n, .unbounded, hv⟩
  | fixedInt w =>
    obtain ⟨signed, width⟩ := w
    cases signed with
    | false =>
      obtain ⟨n, -, -, hv⟩ := (Integral.unsigned width).exists_of_converter h
      exact .inl ⟨_, _, n, .unsigned width, hv⟩
    | true =>
      obtain ⟨n, -, -, hv⟩ := (Integral.signed width).exists_of_converter h
      exact .inl ⟨_, _, n, .signed width, hv⟩
  | decimal =>
    rw [converter, Converter.decimal, Converter.readDecimal, Decimal.read_literal htext] at h
    cases hnumeral : Decimal.ofNumeral (Numeral.ofLiteral text) with
    | error e =>
      rw [hnumeral] at h
      cases e <;> cases h
    | ok d =>
      rw [hnumeral] at h
      cases h
      exact .inr (.inl ⟨rfl, d, rfl, rfl⟩)
  | fraction =>
    rw [converter, Converter.fraction] at h
    cases hread : Converter.readFraction (String.ofList text) with
    | error e =>
      rw [hread] at h
      cases h
    | ok q =>
      rw [hread] at h
      cases h
      exact .inr (.inr ⟨rfl, q, rfl⟩)

/-- What an exact type makes of a literal is read back from its text, if it can be written. -/
theorem NamedType.converter_text {t : NamedType} (ht : t.IsExact) {text : List Char}
    (htext : IsNumeral text) {v : Value} (h : t.converter (String.ofList text) = .ok v)
    (hv : v.isPrintable = true) : t.converter v.text = .ok v := by
  obtain ⟨value, range, n, hintegral, -⟩ | ⟨rfl, d, hd, rfl⟩ | ⟨rfl, q, rfl⟩ := ht.cases htext h
  · exact hintegral.converter_text h
  · exact Converter.decimal_of_read (Decimal.read_text hd)
  · exact Converter.fraction_of_read (Converter.readFraction_text hv)

/-! ## Scanning -/

/-- The rational number that a literal denotes. -/
def rationalOf (text : List Char) : Rat :=
  signed (Numeral.ofLiteral text).negative (Numeral.ofLiteral text).coefficient /
    10 ^ (Numeral.ofLiteral text).fraction.length

theorem Number.Decimal.toRat?_literal (negative : Bool) (m k : Nat) :
    (finite negative m (-k)).toRat? = some ((signed negative m : Rat) / 10 ^ k) := by
  have hscale : (-k : Int).toNat = 0 := by omega
  simp only [toRat?, Int.neg_neg, Int.toNat_natCast, hscale, Rat.mkRat_eq_div, signed]
  cases negative with
  | false => simp
  | true => simp [neg_div]

/-- Lowest terms are no greater than the terms of a quotient. -/
theorem mkRat_le (n : Int) {d : Nat} (hd : d ≠ 0) :
    (mkRat n d).num.natAbs ≤ n.natAbs ∧ (mkRat n d).den ≤ d := by
  have hterms : mkRat n d = ⟨(mkRat n d).num, (mkRat n d).den, (mkRat n d).den_nz,
    (mkRat n d).reduced⟩ := rfl
  obtain ⟨m, hm, hnum, hden⟩ := Rat.mkRat_num_den hd hterms
  have hpos : 0 < m := Nat.pos_of_ne_zero hm
  refine ⟨?_, ?_⟩
  · conv => rhs; rw [hnum, Int.natAbs_mul, Int.natAbs_natCast]
    exact Nat.le_mul_of_pos_right _ hpos
  · conv => rhs; rw [hden]
    exact Nat.le_mul_of_pos_right _ hpos

section Literals

variable {n : Numeral} (h : n.WellFormed) (hshort : n.whole.length + n.fraction.length < maxDigits)

include h hshort

/-- A short literal is within the bounds of decimals. -/
theorem Number.Decimal.ofNumeral_literal (hwritten : n.written = .none) :
    ofNumeral n = .ok (finite n.negative n.coefficient (-n.fraction.length)) := by
  have hlength := length_tidied_le (n.whole ++ n.fraction)
  rw [← digitsOf_digitsValue h.isDigits, List.length_append] at hlength
  have hscale : n.scale = -n.fraction.length := by
    rw [Numeral.scale, Numeral.exponent, hwritten]
    exact Int.zero_sub _
  rw [maxDigits] at hshort
  rw [ofNumeral, hscale, if_neg]
  rw [greatestLeading, leastExponent, Numeral.coefficient]
  omega

/-- The terms of the fraction of a short literal can be written.  With one digit more, the
denominator of a literal may be too long. -/
theorem Value.isPrintable_literal :
    (Value.fraction (mkRat (signed n.negative n.coefficient)
      (10 ^ n.fraction.length))).isPrintable = true := by
  have hpow : 10 ^ n.fraction.length ≠ 0 := Nat.pos_iff_ne_zero.1 (Nat.pow_pos (by decide))
  obtain ⟨hnum, hden⟩ := mkRat_le (signed n.negative n.coefficient) hpow
  have hcoefficient := digitsValue_lt h.isDigits.2
  rw [List.length_append] at hcoefficient
  rw [isPrintable, shortInteger, shortInteger, Bool.and_eq_true_iff, decide_eq_true_iff,
    decide_eq_true_iff, Int.natAbs_natCast]
  constructor
  · calc
      _ ≤ n.coefficient := hnum.trans (natAbs_signed _ _).le
      _ < 10 ^ (n.whole.length + n.fraction.length) := hcoefficient
      _ ≤ 10 ^ maxDigits := Nat.pow_le_pow_right (by decide) hshort.le
  · exact hden.trans_lt (Nat.pow_lt_pow_right (by decide) (by omega))

end Literals

/-- A literal that is not too long loses nothing as a decimal or a fraction.  The value denotes
what the literal denotes, a decimal with the places and the sign of the literal, and is read back
from its text.  A decimal is written as the literal was, if that is tidy and its leading digit
stands at most six places behind the point. -/
theorem scan_exact {code text : List Char}
    (htake : Fragment.take? (code.dropWhile isGap) = some (.numeral, text))
    (hshort : text.countP Char.isDigit < maxDigits) (filename : String) (pos : Position) :
    let start := pos.advance (code.takeWhile isGap)
    let n := Numeral.ofLiteral text
    let d := Decimal.finite n.negative n.coefficient (-n.fraction.length)
    let q := rationalOf text
    ((∃ s, scan NamedType.decimal.converter filename code pos = .ok s ∧
        s.token = ⟨.number (.decimal d), start, String.ofList text⟩) ∧
      d.toRat? = some q ∧ NamedType.decimal.converter (Value.decimal d).text = .ok (.decimal d) ∧
      (tidied n.whole = n.whole →
        -6 ≤ ((tidied (n.whole ++ n.fraction)).length - 1 - n.fraction.length : Int) →
        (Value.decimal d).text = String.ofList text)) ∧
    ((∃ s, scan NamedType.fraction.converter filename code pos = .ok s ∧
        s.token = ⟨.number (.fraction q), start, String.ofList text⟩) ∧
      0 < q.den ∧ q.num.natAbs.Coprime q.den ∧ (Value.fraction q).isPrintable = true ∧
      NamedType.fraction.converter (Value.fraction q).text = .ok (.fraction q)) := by
  intro start n d q
  have htext := Fragment.isNumeral_of_take? htake
  obtain ⟨hwellFormed, hspelled⟩ := Numeral.ofLiteral_spelled htext
  rw [countP_isDigit] at hshort
  have hquotient : mkRat (signed n.negative n.coefficient) (10 ^ n.fraction.length) = q := by
    rw [Rat.mkRat_eq_div, Nat.cast_pow]
    rfl
  have hdecimal : NamedType.decimal.converter (String.ofList text) = .ok (.decimal d) := by
    refine Converter.decimal_of_read ?_
    rw [Decimal.read_literal htext, Decimal.ofNumeral_literal hwellFormed hshort rfl]
  have hfraction : NamedType.fraction.converter (String.ofList text) = .ok (.fraction q) := by
    have hread := Converter.readFraction_spelled hwellFormed
    rw [Converter.fractionOfNumeral_literal rfl (by omega) (by omega), hquotient, hspelled] at hread
    exact Converter.fraction_of_read hread
  have hprintable := Value.isPrintable_literal hwellFormed hshort
  rw [hquotient] at hprintable
  have hscan := fun convert => scan_of_take?_numeral convert htake filename pos
  refine ⟨⟨?_, Decimal.toRat?_literal _ _ _, ?_, fun htidy hadjusted => ?_⟩,
    ⟨?_, q.den_pos, q.reduced, hprintable, ?_⟩⟩
  · have htoken := hscan NamedType.decimal.converter
    rwa [hdecimal] at htoken
  · exact NamedType.converter_text (t := .decimal) trivial htext hdecimal rfl
  · exact (Decimal.text_literal hwellFormed rfl htidy hadjusted).trans
      (congrArg String.ofList hspelled)
  · have htoken := hscan NamedType.fraction.converter
    rwa [hfraction] at htoken
  · exact NamedType.converter_text (t := .fraction) trivial htext hfraction hprintable

/-- A negative literal with zeros at its end, between a tab and a sum, keeps them as a decimal, and
loses them as a fraction. -/
theorem scan_exact_padded :
    Fragment.take? ("\t-0.0500+1".toList.dropWhile isGap) = some (.numeral, "-0.0500".toList) ∧
      "-0.0500".toList.countP Char.isDigit < maxDigits ∧
      (∃ s, scan Converter.decimal "" "\t-0.0500+1".toList ⟨0, 0⟩ = .ok s ∧
        s.token = ⟨.number (.decimal (.finite true 500 (-4))), ⟨0, 1⟩, "-0.0500"⟩) ∧
      (Value.decimal (.finite true 500 (-4))).text = "-0.0500" ∧
      (∃ s, scan Converter.fraction "" "\t-0.0500+1".toList ⟨0, 0⟩ = .ok s ∧
        s.token = ⟨.number (.fraction (-1 / 20)), ⟨0, 1⟩, "-0.0500"⟩) ∧
      Converter.fraction (Value.fraction (-1 / 20)).text = .ok (.fraction (-1 / 20)) := by
  have htake : Fragment.take? ("\t-0.0500+1".toList.dropWhile isGap) =
      some (.numeral, "-0.0500".toList) := by decide +kernel
  have hshort : "-0.0500".toList.countP Char.isDigit < maxDigits := by decide
  have hvalue : rationalOf "-0.0500".toList = -1 / 20 := by
    have hterms : rationalOf "-0.0500".toList = ((-500 : Int) : Rat) / 10 ^ 4 := rfl
    rw [hterms]
    norm_num
  obtain ⟨⟨hdecimal, -, -, hwritten⟩, hfraction, -, -, -, hback⟩ :=
    scan_exact htake hshort "" ⟨0, 0⟩
  rw [hvalue] at hfraction hback
  exact ⟨htake, hshort, hdecimal, hwritten rfl (by decide), hfraction, hback⟩

end ExprFront
