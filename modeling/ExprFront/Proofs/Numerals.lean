import ExprFront.NumberType
import ExprFront.Proofs.Lexemes
import Mathlib.Data.List.Induction

/-!
# Reading and writing numerals

Facts about numerals that the number types share, whatever value they make of them.

* The digits of the number that a run of digits denotes are the run without superfluous zeros
  in front (`digitsOf_digitsValue`).
* `Numeral.spelled` writes a numeral down.  A well-formed numeral is read back from what is
  written (`Numeral.read?_spelled`), and a literal of the source language is a written numeral
  without an exponent (`Numeral.ofLiteral_spelled`).
* A written numeral holds no character that the readers skip, so each reader sees it as it is
  (`Converter.readInteger_spelled`, `Decimal.read_spelled`, `Converter.readFraction_spelled`).
-/

namespace ExprFront

namespace Text

/-- What holds of the ten digits holds of every digit. -/
theorem of_isDigit {P : Char → Prop} [DecidablePred P]
    (h : "0123456789".toList.all (P ·) = true) {c : Char} (hc : c.isDigit = true) : P c := by
  have hall : ∀ n < 58, 48 ≤ n → Char.ofNat n ∈ "0123456789".toList := by decide
  obtain ⟨hle, hge⟩ := Char.isDigit_iff_toNat.1 hc
  refine of_decide_eq_true (List.all_eq_true.1 h c ?_)
  rw [← Char.ofNat_toNat c]
  exact hall c.toNat (Nat.lt_succ_of_le hge) hle

/-- Where no character of the class occurs, there is nothing to trim. -/
theorem trim_of_forall {p : Char → Bool} {cs : List Char} (h : ∀ c ∈ cs, p c = false) :
    trim p cs = cs := by
  have hdrop : ∀ cs : List Char, (∀ c ∈ cs, p c = false) → cs.dropWhile p = cs := by
    intro cs h
    cases cs with
    | nil => rfl
    | cons c cs => exact List.dropWhile_cons_of_neg (by simp [h c List.mem_cons_self])
  rw [trim, hdrop cs h, hdrop cs.reverse fun c hc => h c (List.mem_reverse.1 hc),
    List.reverse_reverse]

end Text

namespace Number

/-! ## Digits -/

theorem digitsValue_digitsOf (n : Nat) : digitsValue (digitsOf n) = n :=
  Nat.ofDigitChars_ten_toDigits

theorem isDigits_digitsOf (n : Nat) : IsDigits (digitsOf n) :=
  ⟨Nat.toDigits_ne_nil,
    fun _ hc => Nat.isDigit_of_mem_toDigits (b := 10) (by decide) (by decide) hc⟩

theorem digitsValue_append (xs ys : List Char) :
    digitsValue (xs ++ ys) = digitsValue xs * 10 ^ ys.length + digitsValue ys := by
  rw [digitsValue, Nat.ofDigitChars_append, Nat.ofDigitChars_eq_ofDigitChars_zero, Nat.mul_comm]
  rfl

theorem digitsValue_replicate_zero (k : Nat) (ds : List Char) :
    digitsValue (List.replicate k '0' ++ ds) = digitsValue ds := by
  simp [digitsValue, Nat.ofDigitChars_append, Nat.ofDigitChars_replicate_zero]

/-- The number that a digit denotes is below ten, and the digit is its only spelling. -/
theorem digitsOf_singleton {d : Char} (hd : d.isDigit = true) :
    digitsValue [d] < 10 ∧ digitsOf (digitsValue [d]) = [d] :=
  Text.of_isDigit (P := fun d => digitsValue [d] < 10 ∧ digitsOf (digitsValue [d]) = [d])
    (by decide) hd

/-- A run of digits that does not start with a zero denotes a positive number. -/
theorem digitsValue_pos {d : Char} {ds : List Char} (hd : d.isDigit = true) (hne : d ≠ '0') :
    0 < digitsValue (d :: ds) := by
  have hfirst : d ≠ '0' → 0 < digitsValue [d] :=
    Text.of_isDigit (P := fun d => d ≠ '0' → 0 < digitsValue [d]) (by decide) hd
  have hvalue := digitsValue_append [d] ds
  rw [List.singleton_append] at hvalue
  rw [hvalue]
  exact Nat.add_pos_left (Nat.mul_pos (hfirst hne) (Nat.pow_pos (by decide))) _

/-- A number is written with the digits that it was read from if they do not start with a
zero. -/
theorem digitsOf_digitsValue_cons {d : Char} (hne : d ≠ '0') (ds : List Char)
    (h : ∀ c ∈ d :: ds, c.isDigit = true) : digitsOf (digitsValue (d :: ds)) = d :: ds := by
  -- The last digit is split off, as it is when a number is written.
  induction ds using List.reverseRecOn with
  | nil => exact (digitsOf_singleton (h d List.mem_cons_self)).2
  | append_singleton ds c ih =>
    have hc : c.isDigit = true := h c (by simp)
    have hfront : ∀ x ∈ d :: ds, x.isDigit = true := by
      intro x hx
      exact h x (by rw [← List.cons_append]; exact List.mem_append_left _ hx)
    have hpos : 0 < digitsValue (d :: ds) := digitsValue_pos (hfront d List.mem_cons_self) hne
    obtain ⟨hlt, hlast⟩ := digitsOf_singleton hc
    have hvalue : digitsValue (d :: ds ++ [c]) = 10 * digitsValue (d :: ds) + digitsValue [c] := by
      rw [digitsValue_append, List.length_singleton, Nat.pow_one, Nat.mul_comm]
    rw [← List.cons_append, hvalue, digitsOf, ← Nat.toDigits_append_toDigits (by decide) hpos hlt]
    exact congrArg₂ (· ++ ·) (ih hfront) hlast

/-- A run of digits without superfluous zeros in front. -/
def tidied : List Char → List Char
  | '0' :: d :: ds => tidied (d :: ds)
  | ds => ds

/-- Only zeros are dropped, and none that is followed by another digit is left in front. -/
theorem tidied_cases (ds : List Char) :
    ∃ k, ds = List.replicate k '0' ++ tidied ds ∧
      (tidied ds = [] ∨ tidied ds = ['0'] ∨ ∃ d rest, tidied ds = d :: rest ∧ d ≠ '0') := by
  fun_induction tidied ds with
  | case1 d ds ih =>
    obtain ⟨k, hk, hcases⟩ := ih
    refine ⟨k + 1, ?_, hcases⟩
    rw [List.replicate_succ, List.cons_append, ← hk]
  | case2 ds hds =>
    refine ⟨0, rfl, ?_⟩
    cases ds with
    | nil => exact .inl rfl
    | cons d rest =>
      by_cases hd : d = '0'
      · cases rest with
        | nil => exact .inr (.inl (by rw [hd]))
        | cons e rest => exact absurd (by rw [hd]) (hds e rest)
      · exact .inr (.inr ⟨d, rest, rfl, hd⟩)

theorem tidied_ne_nil {ds : List Char} (h : ds ≠ []) : tidied ds ≠ [] := by
  fun_induction tidied ds with
  | case1 d ds ih => exact ih (List.cons_ne_nil d ds)
  | case2 ds hds => exact h

theorem digitsValue_tidied (ds : List Char) : digitsValue (tidied ds) = digitsValue ds := by
  obtain ⟨k, hk, -⟩ := tidied_cases ds
  conv => rhs; rw [hk]
  exact (digitsValue_replicate_zero k _).symm

theorem length_tidied_le (ds : List Char) : (tidied ds).length ≤ ds.length := by
  obtain ⟨k, hk, -⟩ := tidied_cases ds
  have hlength := congrArg List.length hk
  rw [List.length_append] at hlength
  omega

/-- The zeros that are dropped fill the run up to its length. -/
theorem replicate_tidied (ds : List Char) :
    List.replicate (ds.length - (tidied ds).length) '0' ++ tidied ds = ds := by
  obtain ⟨k, hk, -⟩ := tidied_cases ds
  have hlength := congrArg List.length hk
  rw [List.length_append, List.length_replicate] at hlength
  have hcount : ds.length - (tidied ds).length = k := by omega
  rw [hcount, ← hk]

/-- The digits of the number that a run of digits denotes are the run without its superfluous
zeros. -/
theorem digitsOf_digitsValue {ds : List Char} (h : IsDigits ds) :
    digitsOf (digitsValue ds) = tidied ds := by
  rw [← digitsValue_tidied]
  obtain ⟨k, hk, hcases⟩ := tidied_cases ds
  rcases hcases with hnil | hzero | ⟨d, rest, hcons, hne⟩
  · exact absurd hnil (tidied_ne_nil h.1)
  · rw [hzero]
    rfl
  · rw [hcons] at hk ⊢
    refine digitsOf_digitsValue_cons hne rest fun c hc => h.2 c ?_
    rw [hk]
    exact List.mem_append_right _ hc

/-- A run of digits that starts with a digit other than zero has no superfluous zero. -/
theorem tidied_of_ne {d : Char} (hd : d ≠ '0') (ds : List Char) : tidied (d :: ds) = d :: ds := by
  rw [tidied]
  rintro e es ⟨⟩
  exact hd rfl

/-- The whole part of a tidy literal is a lone zero, or starts with another digit. -/
theorem tidy_cases {whole : List Char} (hwhole : IsDigits whole) (htidy : tidied whole = whole) :
    whole = ['0'] ∨ ∃ d ds, whole = d :: ds ∧ d ≠ '0' := by
  obtain ⟨d, ds, rfl, -⟩ := hwhole.exists_cons
  by_cases hd : d = '0'
  · subst hd
    cases ds with
    | nil => exact .inl rfl
    | cons e es =>
      have hlength := length_tidied_le (e :: es)
      rw [tidied] at htidy
      rw [htidy, List.length_cons] at hlength
      omega
  · exact .inr ⟨d, ds, rfl, hd⟩

/-- A number below a power of ten has no more digits than the power has zeros. -/
theorem length_digitsOf_le {n k : Nat} (hk : 0 < k) : (digitsOf n).length ≤ k ↔ n < 10 ^ k :=
  Nat.length_toDigits_le_iff (by decide) hk

/-! ## Written numerals -/

/-- The exponent as it is written: nothing if it has no digits. -/
def Exponent.spelled (e : Exponent) : List Char :=
  if e.digits = [] then [] else 'E' :: (if e.negative then '-' else '+') :: e.digits

/-- A point and the digits after it: nothing if there are none. -/
def pointedFraction (ds : List Char) : List Char := if ds = [] then [] else '.' :: ds

/-- No exponent is written. -/
def Exponent.none : Exponent := ⟨false, []⟩

namespace Numeral

/-- The numeral as it is written. -/
def spelled (n : Numeral) : List Char :=
  (if n.negative then ['-'] else []) ++
    (n.whole ++ (pointedFraction n.fraction ++ n.written.spelled))

theorem spelled_of_none {n : Numeral} (h : n.written = .none) :
    n.spelled = (if n.negative then ['-'] else []) ++ (n.whole ++ pointedFraction n.fraction) := by
  have hnone : n.written.spelled = [] := by
    rw [h]
    rfl
  rw [spelled, hnone, List.append_nil]

/-- A numeral of digits, with at least one before the point, and no sign of an exponent that is
not written. -/
structure WellFormed (n : Numeral) : Prop where
  whole : IsDigits n.whole
  fraction : ∀ c ∈ n.fraction, c.isDigit = true
  exponent : n.written = .none ∨ IsDigits n.written.digits

theorem WellFormed.isDigits {n : Numeral} (h : n.WellFormed) : IsDigits (n.whole ++ n.fraction) :=
  ⟨List.append_ne_nil_of_left_ne_nil h.whole.1 _, List.forall_mem_append.2 ⟨h.whole.2, h.fraction⟩⟩

end Numeral

theorem takeSign_digits {ds : List Char} (h : IsDigits ds) (rest : List Char) :
    takeSign (ds ++ rest) = (false, ds ++ rest) := by
  obtain ⟨c, r, rfl, hc⟩ := h.exists_cons
  rw [List.cons_append, takeSign]
  · rintro rest' ⟨⟩
    exact absurd hc (by decide)
  · rintro rest' ⟨⟩
    exact absurd hc (by decide)

theorem takeSign_signed (negative : Bool) {ds rest : List Char} (h : IsDigits ds) :
    takeSign ((if negative then ['-'] else []) ++ (ds ++ rest)) = (negative, ds ++ rest) := by
  cases negative with
  | false => exact takeSign_digits h rest
  | true => rfl

theorem takeExponent_spelled {e : Exponent} (h : e = .none ∨ IsDigits e.digits) :
    takeExponent e.spelled = (e, []) := by
  rcases h with rfl | h
  · rfl
  · have htake : e.digits.takeWhile Char.isDigit = e.digits := List.takeWhile_eq_self_iff.2 h.2
    have hdrop : e.digits.dropWhile Char.isDigit = [] := List.dropWhile_eq_nil_iff.2 h.2
    have hsign :
        takeSign ((if e.negative then '-' else '+') :: e.digits) = (e.negative, e.digits) := by
      cases e.negative <;> rfl
    rw [Exponent.spelled, if_neg h.1, takeExponent]
    simp only [hsign, htake, hdrop, List.isEmpty_iff, h.1]
    rfl

/-- An exponent does not go on with the digits before it. -/
theorem Exponent.takeWhile_spelled (e : Exponent) : e.spelled.takeWhile Char.isDigit = [] := by
  rw [spelled]
  split <;> rfl

theorem takeFraction_pointed {ds : List Char} (hds : ∀ c ∈ ds, c.isDigit = true) (e : Exponent) :
    takeFraction (pointedFraction ds ++ e.spelled) = (ds, e.spelled) := by
  by_cases h : ds = []
  · rw [pointedFraction, if_pos h, List.nil_append, Exponent.spelled, h]
    split <;> rfl
  · have hdigits : IsDigits ds := ⟨h, hds⟩
    rw [pointedFraction, if_neg h, List.cons_append, takeFraction,
      hdigits.takeWhile_append e.takeWhile_spelled, hdigits.dropWhile_append e.takeWhile_spelled]

theorem takeWhile_pointed (ds : List Char) (e : Exponent) :
    (pointedFraction ds ++ e.spelled).takeWhile Char.isDigit = [] := by
  rw [pointedFraction]
  split
  · exact e.takeWhile_spelled
  · rfl

/-- A numeral is read back from what is written. -/
theorem Numeral.read?_spelled {n : Numeral} (h : n.WellFormed) :
    Numeral.read? n.spelled = some n := by
  have hpoint := takeWhile_pointed n.fraction n.written
  have hwhole : n.whole.isEmpty = false := List.isEmpty_eq_false_iff.2 h.whole.1
  rw [read?, take?, spelled, takeSign_signed n.negative h.whole]
  simp only [h.whole.takeWhile_append hpoint, h.whole.dropWhile_append hpoint,
    takeFraction_pointed h.fraction, takeExponent_spelled h.exponent, hwhole, Bool.false_and]
  rfl

/-! ## Literals -/

/-- The numeral of a literal, part by part: a literal has no exponent. -/
def Numeral.ofLiteral (text : List Char) : Numeral :=
  ⟨text.head? == some '-', (text.takeWhile (· ≠ '.')).filter Char.isDigit,
    (text.dropWhile (· ≠ '.')).filter Char.isDigit, .none⟩

/-- The parts of a literal are a well-formed numeral that is written as the literal. -/
theorem Numeral.ofLiteral_spelled {text : List Char} (h : IsNumeral text) :
    (ofLiteral text).WellFormed ∧ (ofLiteral text).spelled = text := by
  obtain ⟨sign, whole, fraction, rfl, hsign, hwhole, hfraction⟩ := h
  have hfilter : ∀ {ds : List Char}, (∀ c ∈ ds, c.isDigit = true) → ds.filter Char.isDigit = ds :=
    List.filter_eq_self.2
  have hnegative : ((sign ++ (whole ++ fraction)).head? == some '-') = !sign.isEmpty := by
    rcases hsign with rfl | rfl
    · obtain ⟨c, r, rfl, hc⟩ := hwhole.exists_cons
      have hne : c ≠ '-' := by
        rintro rfl
        exact absurd hc (by decide)
      simpa using hne
    · rfl
  -- No character before the point is one.
  have hfront : ∀ c ∈ sign ++ whole, c ≠ '.' := by
    rintro c hc rfl
    rcases List.mem_append.1 hc with hc | hc
    · rcases hsign with rfl | rfl
      · cases hc
      · exact absurd hc (by decide)
    · exact absurd (hwhole.2 _ hc) (by decide)
  have hsigned : (if (!sign.isEmpty) = true then ['-'] else []) = sign := by
    rcases hsign with rfl | rfl <;> rfl
  have hdigits : (sign ++ whole).filter Char.isDigit = whole := by
    rw [List.filter_append, hfilter hwhole.2]
    rcases hsign with rfl | rfl <;> rfl
  have hparts : ofLiteral (sign ++ (whole ++ fraction)) =
      ⟨!sign.isEmpty, whole, fraction.filter Char.isDigit, .none⟩ := by
    have htake : fraction.takeWhile (· ≠ '.') = [] := by
      rcases hfraction with rfl | ⟨ds, rfl, -⟩ <;> rfl
    have hdrop : fraction.dropWhile (· ≠ '.') = fraction := by
      rcases hfraction with rfl | ⟨ds, rfl, -⟩ <;> rfl
    rw [ofLiteral, hnegative, ← List.append_assoc,
      List.takeWhile_append_of_pos (by simpa using hfront), htake, List.append_nil, hdigits,
      List.dropWhile_append_of_pos (by simpa using hfront), hdrop]
  rw [hparts]
  rcases hfraction with rfl | ⟨ds, rfl, hds⟩
  · refine ⟨⟨hwhole, by simp, .inl rfl⟩, ?_⟩
    rw [spelled_of_none rfl, hsigned]
    rfl
  · have hpoint : ('.' :: ds).filter Char.isDigit = ds := by
      rw [List.filter_cons_of_neg (by decide), hfilter hds.2]
    rw [hpoint]
    refine ⟨⟨hwhole, hds.2, .inl rfl⟩, ?_⟩
    rw [spelled_of_none rfl, hsigned, pointedFraction, if_neg hds.1]

/-- Without an exponent, a written numeral is a literal. -/
theorem Numeral.WellFormed.isNumeral {n : Numeral} (h : n.WellFormed)
    (hwritten : n.written = .none) : IsNumeral n.spelled := by
  refine ⟨if n.negative then ['-'] else [], n.whole, pointedFraction n.fraction,
    spelled_of_none hwritten, ?_, h.whole, ?_⟩
  · cases n.negative with
    | false => exact .inl rfl
    | true => exact .inr rfl
  · by_cases hnil : n.fraction = []
    · exact .inl (if_pos hnil)
    · exact .inr ⟨n.fraction, if_neg hnil, hnil, h.fraction⟩

/-- A number under a sign. -/
def signed (negative : Bool) (n : Nat) : Int := if negative then -(n : Int) else n

/-- The numeral that an integer is written as. -/
def Numeral.ofInt (n : Int) : Numeral := ⟨n < 0, digitsOf n.natAbs, [], .none⟩

theorem Numeral.wellFormed_ofInt (n : Int) : (ofInt n).WellFormed :=
  ⟨isDigits_digitsOf _, nofun, .inl rfl⟩

theorem Numeral.spelled_ofInt (n : Int) : String.ofList (ofInt n).spelled = toString n := by
  have htext : (ofInt n).spelled =
      (if decide (n < 0) then ['-'] else []) ++ (digitsOf n.natAbs ++ []) := rfl
  apply String.toList_injective
  rw [String.toList_ofList, htext, List.append_nil, Int.toString_eq_repr, Int.repr_eq_if]
  by_cases hn : n < 0
  · have habs : (-n).toNat = n.natAbs := by omega
    rw [if_neg (Int.not_le.2 hn), habs, String.toList_append, Nat.toList_repr, decide_eq_true hn]
    rfl
  · have habs : n.toNat = n.natAbs := by omega
    rw [if_pos (Int.not_lt.1 hn), habs, Nat.toList_repr, decide_eq_false hn]
    rfl

theorem natAbs_signed (negative : Bool) (n : Nat) : (signed negative n).natAbs = n := by
  cases negative with
  | false => exact Int.natAbs_natCast n
  | true => exact (Int.natAbs_neg n).trans (Int.natAbs_natCast n)

theorem signed_neg_iff (negative : Bool) (n : Nat) :
    signed negative n < 0 ↔ negative = true ∧ n ≠ 0 := by
  cases negative with
  | false => simp [signed]
  | true => simp [signed, Nat.pos_iff_ne_zero]

theorem signed_natAbs (n : Int) : signed (decide (n < 0)) n.natAbs = n := by
  rw [signed]
  split
  · next h =>
    have hneg : n < 0 := of_decide_eq_true h
    omega
  · next h =>
    have hnonneg : ¬ n < 0 := by simpa using h
    omega

/-! ## What the readers see -/

/-- Is the character one that numbers are written with? -/
def isPlain (c : Char) : Bool := c.isDigit || "+-.E/".toList.contains c

/-- A text of characters that numbers are written with. -/
def Plain (cs : List Char) : Prop := ∀ c ∈ cs, isPlain c = true

/-- The readers neither skip nor replace a plain character. -/
theorem spec_of_isPlain {c : Char} (h : isPlain c = true) :
    Text.isBlank c = false ∧ Text.isPadding c = false ∧ Text.asciiDigit c = c ∧ c ≠ '_' := by
  let P (c : Char) : Prop := Text.isBlank c = false ∧ Text.isPadding c = false ∧
    Text.asciiDigit c = c ∧ c ≠ '_'
  rcases Bool.or_eq_true_iff.1 h with hdigit | hother
  · exact Text.of_isDigit (P := P) (by decide) hdigit
  · have hall : "+-.E/".toList.all (P ·) = true := by decide
    exact of_decide_eq_true (List.all_eq_true.1 hall c (List.contains_iff_mem.1 hother))

namespace Plain

variable {cs : List Char} (h : Plain cs)

include h

theorem trim_isBlank : Text.trim Text.isBlank cs = cs :=
  Text.trim_of_forall fun c hc => (spec_of_isPlain (h c hc)).1

theorem map_asciiDigit : cs.map Text.asciiDigit = cs :=
  (List.map_congr_left fun c hc => (spec_of_isPlain (h c hc)).2.2.1).trans (List.map_id cs)

theorem filter_underscore : cs.filter (· ≠ '_') = cs :=
  List.filter_eq_self.2 fun c hc => by simpa using (spec_of_isPlain (h c hc)).2.2.2

theorem dropWhile_isPadding : cs.dropWhile Text.isPadding = cs := by
  cases cs with
  | nil => rfl
  | cons c cs =>
    refine List.dropWhile_cons_of_neg ?_
    simp [(spec_of_isPlain (h c List.mem_cons_self)).2.1]

theorem ungroup_eq : ungroup cs = some cs := by
  have hgrouped : ∀ afterDigit, wellGrouped afterDigit cs = true := by
    induction cs with
    | nil => exact fun _ => rfl
    | cons c cs ih =>
      obtain ⟨hc, hcs⟩ := List.forall_mem_cons.1 h
      have hne := (spec_of_isPlain hc).2.2.2
      intro afterDigit
      rw [wellGrouped]
      · exact ih hcs _
      · rintro rfl
        exact absurd rfl hne
      · rintro c' cs' rfl
        exact absurd rfl hne
  rw [ungroup, if_pos (hgrouped false), h.filter_underscore]

end Plain

theorem plain_digits {ds : List Char} (h : ∀ c ∈ ds, c.isDigit = true) : Plain ds :=
  fun c hc => Bool.or_eq_true_iff.2 (.inl (h c hc))

theorem Plain.append {xs ys : List Char} (hx : Plain xs) (hy : Plain ys) : Plain (xs ++ ys) :=
  List.forall_mem_append.2 ⟨hx, hy⟩

theorem Plain.cons {c : Char} {cs : List Char} (hc : isPlain c = true) (h : Plain cs) :
    Plain (c :: cs) :=
  List.forall_mem_cons.2 ⟨hc, h⟩

theorem plain_sign (negative : Bool) : Plain (if negative then ['-'] else []) := by
  cases negative with
  | false => exact nofun
  | true => exact .cons rfl nofun

theorem Numeral.WellFormed.plain {n : Numeral} (h : n.WellFormed) : Plain n.spelled := by
  have hfraction : Plain (pointedFraction n.fraction) := by
    rw [pointedFraction]
    split
    · exact nofun
    · exact .cons rfl (plain_digits h.fraction)
  have hexponent : Plain n.written.spelled := by
    rw [Exponent.spelled]
    split
    · exact nofun
    · next hne =>
      have hdigits : IsDigits n.written.digits :=
        h.exponent.resolve_left fun hnone => hne (by rw [hnone]; rfl)
      refine .cons rfl (.cons ?_ (plain_digits hdigits.2))
      split <;> rfl
  exact (plain_sign _).append ((plain_digits h.whole.2).append (hfraction.append hexponent))

/-- A decimal is read from a written numeral digit by digit. -/
theorem Decimal.read_spelled {n : Numeral} (h : n.WellFormed) :
    Decimal.read (String.ofList n.spelled) = ofNumeral n := by
  have hplain := h.plain
  simp only [read, String.toList_ofList, hplain.trim_isBlank, hplain.filter_underscore,
    hplain.map_asciiDigit, Numeral.read?_spelled h]

theorem Decimal.read_literal {text : List Char} (htext : IsNumeral text) :
    Decimal.read (String.ofList text) = ofNumeral (Numeral.ofLiteral text) := by
  obtain ⟨hwellFormed, hspelled⟩ := Numeral.ofLiteral_spelled htext
  have hread := read_spelled hwellFormed
  rwa [hspelled] at hread

end Number

namespace Converter

open Number

/-- The fraction that is read from a written numeral. -/
theorem readFraction_spelled {n : Numeral} (h : n.WellFormed) :
    readFraction (String.ofList n.spelled) = fractionOfNumeral n := by
  have hplain := h.plain
  simp only [readFraction, String.toList_ofList, hplain.trim_isBlank, hplain.map_asciiDigit,
    hplain.ungroup_eq, Numeral.read?_spelled h]

/-- The fraction that is read from a plain text that is no numeral. -/
theorem readFraction_of_read?_none {cs : List Char} (h : Plain cs)
    (hread : Numeral.read? cs = none) :
    readFraction (String.ofList cs) = fractionOfText (String.ofList cs) cs := by
  simp only [readFraction, String.toList_ofList, h.trim_isBlank, h.map_asciiDigit, h.ungroup_eq,
    hread]

theorem boundedDigits_of_le {ds : List Char} (h : ds.length ≤ maxDigits) :
    boundedDigits ds = .ok (digitsValue ds) :=
  if_neg (Nat.not_lt.2 h)

/-- A literal is the fraction of its digits over a power of ten, if neither run is too long. -/
theorem fractionOfNumeral_literal {n : Numeral} (hwritten : n.written = .none)
    (hwhole : n.whole.length ≤ maxDigits) (hfraction : n.fraction.length ≤ maxDigits) :
    fractionOfNumeral n =
      .ok (mkRat (signed n.negative n.coefficient) (10 ^ n.fraction.length)) := by
  have hnone : boundedDigits n.written.digits = .ok 0 := by
    rw [hwritten]
    rfl
  have hexponent : n.exponent = 0 := by
    rw [Numeral.exponent, hwritten]
    rfl
  simp [fractionOfNumeral, boundedDigits_of_le hwhole, boundedDigits_of_le hfraction, hnone,
    hexponent, bind, Except.bind, quotient, signed, Numeral.coefficient, digitsValue_append]

/-- The integer that is read from a written literal.  Its digits before the point are counted
before the point is found. -/
theorem readInteger_spelled {n : Numeral} (h : n.WellFormed) (hwritten : n.written = .none) :
    readInteger (String.ofList n.spelled) =
      if maxDigits < n.whole.length then .error (.tooManyDigits n.whole.length)
      else if n.fraction = [] then .ok (signed n.negative (digitsValue n.whole))
      else .error (.notInteger (String.ofList n.spelled)) := by
  have hplain := h.plain
  have hrun : ∀ c ∈ n.whole, (c.isDigit || c == '_') = true := by
    intro c hc
    rw [h.whole.2 c hc, Bool.true_or]
  have hsign : takeSign n.spelled = (n.negative, n.whole ++ pointedFraction n.fraction) := by
    rw [Numeral.spelled_of_none hwritten, takeSign_signed n.negative h.whole]
  have htake : (n.whole ++ pointedFraction n.fraction).takeWhile (fun c => c.isDigit || c == '_') =
      n.whole := by
    rw [List.takeWhile_append_of_pos hrun, pointedFraction]
    split
    · exact List.append_nil _
    · exact List.append_nil _
  have hdrop : (n.whole ++ pointedFraction n.fraction).dropWhile (fun c => c.isDigit || c == '_') =
      pointedFraction n.fraction := by
    rw [List.dropWhile_append_of_pos hrun, pointedFraction]
    split
    · rfl
    · rfl
  have hpadding : (pointedFraction n.fraction).all Text.isPadding = decide (n.fraction = []) := by
    rw [pointedFraction]
    split
    · next hnil => simp [hnil]
    · next hne => rw [decide_eq_false hne]; rfl
  obtain ⟨c, r, hcons⟩ := List.exists_cons_of_ne_nil h.whole.1
  have hungroup : ungroup n.whole = some (c :: r) := by
    rw [(plain_digits h.whole.2).ungroup_eq, hcons]
  simp only [readInteger, String.toList_ofList, hplain.map_asciiDigit, hplain.dropWhile_isPadding,
    hsign, htake, hdrop, hpadding, hungroup]
  rw [← hcons, boundedDigits]
  by_cases hlong : maxDigits < n.whole.length
  · rw [if_pos hlong, if_pos hlong]
  · rw [if_neg hlong, if_neg hlong]
    by_cases hnil : n.fraction = []
    · rw [if_pos hnil]
      exact if_pos (decide_eq_true hnil)
    · rw [if_neg hnil]
      exact if_neg (by simpa using hnil)

/-- An integer is read back from its text, if it is not too long. -/
theorem readInteger_toString {n : Int} (h : n.natAbs < 10 ^ maxDigits) :
    readInteger (toString n) = .ok n := by
  have hlength : (Numeral.ofInt n).whole.length ≤ maxDigits :=
    (length_digitsOf_le (by decide)).2 h
  have hfraction : (Numeral.ofInt n).fraction = [] := rfl
  have hvalue : signed (decide (n < 0)) (digitsValue (digitsOf n.natAbs)) = n := by
    rw [digitsValue_digitsOf, signed_natAbs]
  rw [← Numeral.spelled_ofInt, readInteger_spelled (Numeral.wellFormed_ofInt n) rfl,
    if_neg (Nat.not_lt.2 hlength), if_pos hfraction]
  exact congrArg Except.ok hvalue

end Converter

end ExprFront
