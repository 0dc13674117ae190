import ExprFront.Proofs.LongestMatch
import ExprFront.Proofs.NumberTypes
import ExprFront.Proofs.Numerals

/-!
# Integer types

An integer type never wraps: a literal becomes the integer that it denotes, or it is refused.

* `NamedType.Integral` lists the integer types with the integers that each of them holds.  A
  value of such a type is read back from its text (`NamedType.Integral.converter_text`).
* `Legible` are the literals that denote an integer and are short enough to be read.  Exactly
  these are read, and as what they denote (`Converter.readInteger_of_legible`,
  `Converter.readInteger_of_not_legible`).
* `canonicalText` writes the integer of a literal from the literal's own digits.  It is the text
  of the value (`spelled_integerOf`), and it is scanned as the same value
  (`scan_canonicalText`).

Main result: `scan_integer`.
-/

namespace ExprFront

open Number

/-! ## The integers of a type -/

/-- The integer types: how the type holds an integer, and which integers it holds. -/
inductive NamedType.Integral : NamedType → (Int → Value) → (Int → Prop) → Prop where
  | unbounded : Integral .integer .integer fun _ => True
  | signed (w : Width) : Integral (.fixedInt ⟨true, w⟩) (.fixedInt ⟨true, w⟩)
      fun n => -2 ^ (w.bits - 1) ≤ n ∧ n ≤ 2 ^ (w.bits - 1) - 1
  | unsigned (w : Width) : Integral (.fixedInt ⟨false, w⟩) (.fixedInt ⟨false, w⟩)
      fun n => 0 ≤ n ∧ n ≤ 2 ^ w.bits - 1

namespace NamedType.Integral

variable {t : NamedType} {value : Int → Value} {range : Int → Prop} (ht : t.Integral value range)
  {s : String}

include ht

/-- The range of a type of fixed width is the one that its converter checks. -/
theorem cases :
    (t = .integer ∧ value = .integer ∧ range = fun _ => True) ∨
      ∃ w : IntType, t = .fixedInt w ∧ value = .fixedInt w ∧
        range = fun n => w.least ≤ n ∧ n ≤ w.greatest := by
  cases ht with
  | unbounded => exact .inl ⟨rfl, rfl, rfl⟩
  | signed w => exact .inr ⟨⟨true, w⟩, rfl, rfl, rfl⟩
  | unsigned w => exact .inr ⟨⟨false, w⟩, rfl, rfl, rfl⟩

theorem text_value (n : Int) : (value n).text = toString n := by
  obtain ⟨-, rfl, -⟩ | ⟨w, -, rfl, -⟩ := ht.cases
  · rfl
  · rfl

/-- What is no integer is no number of the type. -/
theorem converter_error {e : ConversionError} (h : Converter.readInteger s = .error e) :
    t.converter s = .error e := by
  obtain ⟨rfl, -, -⟩ | ⟨w, rfl, -, -⟩ := ht.cases
  · simp only [NamedType.converter, Converter.integer, h, Except.map]
  · simp only [NamedType.converter, Converter.fixedInt, h]

/-- An integer of the type is held as it is. -/
theorem converter_ok {n : Int} (h : Converter.readInteger s = .ok n) (hn : range n) :
    t.converter s = .ok (value n) := by
  obtain ⟨rfl, rfl, -⟩ | ⟨w, rfl, rfl, rfl⟩ := ht.cases
  · simp only [NamedType.converter, Converter.integer, h, Except.map]
  · have hin : ¬ (n < w.least ∨ w.greatest < n) := by omega
    simp only [NamedType.converter, Converter.fixedInt, h, if_neg hin]

/-- Any other integer overflows the type. -/
theorem converter_overflow {n : Int} (h : Converter.readInteger s = .ok n) (hn : ¬ range n) :
    ∃ e, t.converter s = .error e ∧ e.kind = .overflow := by
  obtain ⟨-, -, rfl⟩ | ⟨w, rfl, -, rfl⟩ := ht.cases
  · exact absurd trivial hn
  · have hout : n < w.least ∨ w.greatest < n := by omega
    refine ⟨.outOfRange s w, ?_, rfl⟩
    simp only [NamedType.converter, Converter.fixedInt, h, if_pos hout]

/-- There are no other values of the type. -/
theorem exists_of_converter {v : Value} (h : t.converter s = .ok v) :
    ∃ n, Converter.readInteger s = .ok n ∧ range n ∧ v = value n := by
  cases hread : Converter.readInteger s with
  | error e => cases h.symm.trans (ht.converter_error hread)
  | ok n =>
    by_cases hn : range n
    · cases h.symm.trans (ht.converter_ok hread hn)
      exact ⟨n, rfl, hn, rfl⟩
    · obtain ⟨e, he, -⟩ := ht.converter_overflow hread hn
      cases h.symm.trans he

/-- A value of the type is read back from its text. -/
theorem converter_text {v : Value} (h : t.converter s = .ok v) :
    t.converter v.text = .ok v := by
  obtain ⟨n, hread, hn, rfl⟩ := ht.exists_of_converter h
  rw [ht.text_value]
  exact ht.converter_ok (Converter.readInteger_toString (Converter.readInteger_lt hread)) hn

end NamedType.Integral

/-! ## Literals of integers -/

/-- The integer that a literal without a point denotes. -/
def integerOf (text : List Char) : Int :=
  signed (Numeral.ofLiteral text).negative (digitsValue (Numeral.ofLiteral text).whole)

/-- Does the literal denote an integer, and is it short enough to be read? -/
def Legible (text : List Char) : Prop := '.' ∉ text ∧ text.countP Char.isDigit ≤ maxDigits

/-- The integer of a literal without superfluous zeros, and without the sign of zero. -/
def canonicalText (text : List Char) : List Char :=
  let digits := tidied (Numeral.ofLiteral text).whole
  if (Numeral.ofLiteral text).negative ∧ digits ≠ ['0'] then '-' :: digits else digits

section Literals

variable {text : List Char}

theorem countP_isDigit (text : List Char) :
    text.countP Char.isDigit =
      (Numeral.ofLiteral text).whole.length + (Numeral.ofLiteral text).fraction.length := by
  rw [Numeral.ofLiteral, ← List.countP_eq_length_filter, ← List.countP_eq_length_filter,
    ← List.countP_append, List.takeWhile_append_dropWhile]

variable (h : IsNumeral text)

include h

/-- A literal has a point exactly if it has digits after it. -/
theorem point_notMem_iff : '.' ∉ text ↔ (Numeral.ofLiteral text).fraction = [] := by
  constructor
  · intro hpoint
    have hall : ∀ c ∈ text, decide (c ≠ '.') = true := by
      intro c hc
      refine decide_eq_true ?_
      rintro rfl
      exact hpoint hc
    rw [Numeral.ofLiteral, List.dropWhile_eq_nil_iff.2 hall]
    rfl
  · intro hfraction hpoint
    obtain ⟨hwellFormed, hspelled⟩ := Numeral.ofLiteral_spelled h
    rw [← hspelled, Numeral.spelled_of_none rfl, hfraction, List.mem_append,
      List.mem_append] at hpoint
    rcases hpoint with hsign | hwhole | hnone
    · split at hsign
      · exact absurd hsign (by decide)
      · cases hsign
    · exact absurd (hwellFormed.whole.2 _ hwhole) (by decide)
    · cases hnone

/-- A legible literal is read as the integer that it denotes. -/
theorem Converter.readInteger_of_legible (hlegible : Legible text) :
    readInteger (String.ofList text) = .ok (integerOf text) := by
  obtain ⟨hwellFormed, hspelled⟩ := Numeral.ofLiteral_spelled h
  have hfraction := (point_notMem_iff h).1 hlegible.1
  have hcount := hlegible.2
  rw [countP_isDigit, hfraction, List.length_nil, Nat.add_zero] at hcount
  have hread := readInteger_spelled hwellFormed rfl
  rw [if_neg (Nat.not_lt.2 hcount), if_pos hfraction, hspelled] at hread
  exact hread

/-- Any other literal is no integer. -/
theorem Converter.readInteger_of_not_legible (hlegible : ¬ Legible text) :
    ∃ e, readInteger (String.ofList text) = .error e ∧ e.kind = .value := by
  obtain ⟨hwellFormed, hspelled⟩ := Numeral.ofLiteral_spelled h
  have hread := readInteger_spelled hwellFormed rfl
  rw [hspelled] at hread
  split at hread
  · exact ⟨_, hread, rfl⟩
  · next hlength =>
    split at hread
    · next hfraction =>
      -- Without a point, the digits before the point are all there are.
      refine absurd ⟨(point_notMem_iff h).2 hfraction, ?_⟩ hlegible
      rw [countP_isDigit, hfraction, List.length_nil, Nat.add_zero]
      exact Nat.not_lt.1 hlength
    · exact ⟨_, hread, rfl⟩

/-- The canonical text is the numeral that the integer is written as. -/
theorem spelled_integerOf : (Numeral.ofInt (integerOf text)).spelled = canonicalText text := by
  obtain ⟨hwellFormed, -⟩ := Numeral.ofLiteral_spelled h
  have hdigits := digitsOf_digitsValue hwellFormed.whole
  have hzero : digitsValue (Numeral.ofLiteral text).whole ≠ 0 ↔
      tidied (Numeral.ofLiteral text).whole ≠ ['0'] := by
    rw [← hdigits]
    refine not_congr ⟨fun hvalue => by rw [hvalue]; rfl, fun htext => ?_⟩
    rw [← digitsValue_digitsOf (digitsValue _), htext]
    rfl
  have hsign : decide (integerOf text < 0) =
      decide ((Numeral.ofLiteral text).negative = true ∧
        tidied (Numeral.ofLiteral text).whole ≠ ['0']) := by
    rw [integerOf, decide_eq_decide, signed_neg_iff, hzero]
  have hspelled : (Numeral.ofInt (integerOf text)).spelled =
      (if decide (integerOf text < 0) then ['-'] else []) ++
        tidied (Numeral.ofLiteral text).whole := by
    rw [← hdigits, ← natAbs_signed (Numeral.ofLiteral text).negative (digitsValue _)]
    exact congrArg _ (List.append_nil _)
  rw [hspelled, hsign, canonicalText]
  split
  · next hneg => rw [if_pos (of_decide_eq_true hneg)]; rfl
  · next hpos => rw [if_neg (by simpa using hpos)]; rfl

theorem point_notMem_canonicalText : '.' ∉ canonicalText text := by
  obtain ⟨hwellFormed, -⟩ := Numeral.ofLiteral_spelled h
  have hdigits : IsDigits (tidied (Numeral.ofLiteral text).whole) :=
    digitsOf_digitsValue hwellFormed.whole ▸ isDigits_digitsOf _
  have hpoint : '.' ∉ tidied (Numeral.ofLiteral text).whole := fun hmem =>
    absurd (hdigits.2 _ hmem) (by decide)
  rw [canonicalText]
  split
  · simp [hpoint]
  · exact hpoint

end Literals

/-! ## Scanning -/

section Scanning

variable {t : NamedType} {value : Int → Value} {range : Int → Prop} (ht : t.Integral value range)
  {code text : List Char}
  (htake : Fragment.take? (code.dropWhile isGap) = some (.numeral, text)) (filename : String)
  (pos : Position)

include ht htake

theorem scan_integer_ok (hlegible : Legible text) (hrange : range (integerOf text)) :
    ∃ s, scan t.converter filename code pos = .ok s ∧
      s.token = ⟨.number (value (integerOf text)), pos.advance (code.takeWhile isGap),
        String.ofList text⟩ := by
  have htext := Fragment.isNumeral_of_take? htake
  have hscan := scan_of_take?_numeral t.converter htake filename pos
  rwa [ht.converter_ok (Converter.readInteger_of_legible htext hlegible) hrange] at hscan

theorem scan_integer_overflow (hlegible : Legible text) (hrange : ¬ range (integerOf text)) :
    ∃ x : LexFault, scan t.converter filename code pos =
      .error (.lexical ⟨x, pos.advance (code.takeWhile isGap), filename⟩) ∧ x.code = .L003 := by
  have htext := Fragment.isNumeral_of_take? htake
  obtain ⟨e, hconvert, hkind⟩ :=
    ht.converter_overflow (Converter.readInteger_of_legible htext hlegible) hrange
  have hscan := scan_of_take?_numeral t.converter htake filename pos
  rw [hconvert] at hscan
  refine ⟨.overflow (String.ofList text) e.message, hscan.trans ?_, rfl⟩
  simp only [numeralFailure, hkind]

theorem scan_integer_invalid (hlegible : ¬ Legible text) :
    ∃ x : LexFault, scan t.converter filename code pos =
      .error (.lexical ⟨x, pos.advance (code.takeWhile isGap), filename⟩) ∧ x.code = .L002 := by
  have htext := Fragment.isNumeral_of_take? htake
  obtain ⟨e, hread, hkind⟩ := Converter.readInteger_of_not_legible htext hlegible
  have hscan := scan_of_take?_numeral t.converter htake filename pos
  rw [ht.converter_error hread] at hscan
  refine ⟨.invalidNumber (String.ofList text) e.message, hscan.trans ?_, rfl⟩
  simp only [numeralFailure, hkind]

/-- The text of an accepted value is a literal, and in the place of the one that was accepted it is
accepted as the same value. -/
theorem scan_canonicalText (hlegible : Legible text) (hrange : range (integerOf text)) :
    (value (integerOf text)).text = String.ofList (canonicalText text) ∧
      IsNumeral (canonicalText text) ∧
      ∀ after, code.dropWhile isGap = text ++ after →
        ∃ s, scan t.converter filename
            (code.takeWhile isGap ++ (canonicalText text ++ after)) pos = .ok s ∧
          s.token = ⟨.number (value (integerOf text)), pos.advance (code.takeWhile isGap),
            String.ofList (canonicalText text)⟩ := by
  have htext := Fragment.isNumeral_of_take? htake
  have hspelled := spelled_integerOf htext
  have hnumeral : IsNumeral (canonicalText text) :=
    hspelled ▸ (Numeral.wellFormed_ofInt (integerOf text)).isNumeral rfl
  have hvalue : (value (integerOf text)).text = String.ofList (canonicalText text) := by
    rw [ht.text_value, ← hspelled, Numeral.spelled_ofInt]
  have hback := ht.converter_text
    (ht.converter_ok (Converter.readInteger_of_legible htext hlegible) hrange)
  rw [hvalue] at hback
  refine ⟨hvalue, hnumeral, fun after hafter => ?_⟩
  -- What may follow a literal without a point does not depend on its digits.
  rw [hafter, Fragment.take?_integral_iff htext hlegible.1,
    ← Fragment.take?_integral_iff hnumeral (point_notMem_canonicalText htext)] at htake
  obtain ⟨hgap, hdrop⟩ := Fragment.gap_of_take? (isGap_takeWhile code) htake
  have hscan := scan_of_take?_numeral t.converter (hdrop ▸ htake) filename pos
  rwa [hback, hgap] at hscan

end Scanning

/-- A literal becomes the integer that it denotes if the type holds that integer, and overflows
otherwise; it is no number at all if it has a point or is too long.  An accepted value is written
without superfluous zeros and without a sign of zero, and is read back from what is written, in the
place of the literal. -/
theorem scan_integer {t : NamedType} {value : Int → Value} {range : Int → Prop}
    (ht : t.Integral value range) {code text : List Char}
    (htake : Fragment.take? (code.dropWhile isGap) = some (.numeral, text)) (filename : String)
    (pos : Position) :
    let start := pos.advance (code.takeWhile isGap)
    let result := scan t.converter filename code pos
    let n := integerOf text
    ((∃ s, result = .ok s ∧ s.token = ⟨.number (value n), start, String.ofList text⟩) ↔
      Legible text ∧ range n) ∧
    ((∃ x : LexFault, result = .error (.lexical ⟨x, start, filename⟩) ∧ x.code = .L003) ↔
      Legible text ∧ ¬ range n) ∧
    ((∃ x : LexFault, result = .error (.lexical ⟨x, start, filename⟩) ∧ x.code = .L002) ↔
      ¬ Legible text) ∧
    (Legible text → range n →
      (value n).text = String.ofList (canonicalText text) ∧ IsNumeral (canonicalText text) ∧
      ∀ after, code.dropWhile isGap = text ++ after →
        ∃ s, scan t.converter filename
            (code.takeWhile isGap ++ (canonicalText text ++ after)) pos = .ok s ∧
          s.token = ⟨.number (value n), start, String.ofList (canonicalText text)⟩) := by
  intro start result n
  have hok := scan_integer_ok ht htake filename pos
  have hoverflow := scan_integer_overflow ht htake filename pos
  have hinvalid := scan_integer_invalid ht htake filename pos
  refine ⟨⟨?_, ?_⟩, ⟨?_, ?_⟩, ⟨?_, hinvalid⟩, scan_canonicalText ht htake filename pos⟩
  -- Each outcome rules out the conditions of the other two.
  · rintro ⟨s, hs, -⟩
    have hlegible : Legible text := by
      by_contra h
      obtain ⟨x, hx, -⟩ := hinvalid h
      cases hs.symm.trans hx
    refine ⟨hlegible, ?_⟩
    by_contra h
    obtain ⟨x, hx, -⟩ := hoverflow hlegible h
    cases hs.symm.trans hx
  · rintro ⟨hlegible, hrange⟩
    exact hok hlegible hrange
  · rintro ⟨x, hx, hcode⟩
    have hlegible : Legible text := by
      by_contra h
      obtain ⟨y, hy, hcode'⟩ := hinvalid h
      cases hx.symm.trans hy
      cases hcode.symm.trans hcode'
    refine ⟨hlegible, fun hrange => ?_⟩
    obtain ⟨s, hs, -⟩ := hok hlegible hrange
    cases hx.symm.trans hs
  · rintro ⟨hlegible, hrange⟩
    exact hoverflow hlegible hrange
  · rintro ⟨x, hx, hcode⟩ hlegible
    by_cases hrange : range n
    · obtain ⟨s, hs, -⟩ := hok hlegible hrange
      cases hx.symm.trans hs
    · obtain ⟨y, hy, hcode'⟩ := hoverflow hlegible hrange
      cases hx.symm.trans hy
      cases hcode.symm.trans hcode'

/-- The least number of eight bits with a sign is held as it is, from the superfluous zeros at the
start of a range; one below it overflows. -/
theorem scan_integer_least :
    Fragment.take? (" -0128..3".toList.dropWhile isGap) = some (.numeral, "-0128".toList) ∧
      Fragment.take? ("-129]".toList.dropWhile isGap) = some (.numeral, "-129".toList) ∧
      (∃ s, scan (Converter.fixedInt ⟨true, .w8⟩) "" " -0128..3".toList ⟨0, 0⟩ = .ok s ∧
        s.token = ⟨.number (.fixedInt ⟨true, .w8⟩ (-128)), ⟨0, 1⟩, "-0128"⟩) ∧
      (Value.fixedInt ⟨true, .w8⟩ (-128)).text = "-128" ∧
      (∃ s, scan (Converter.fixedInt ⟨true, .w8⟩) "" " -128..3".toList ⟨0, 0⟩ = .ok s ∧
        s.token = ⟨.number (.fixedInt ⟨true, .w8⟩ (-128)), ⟨0, 1⟩, "-128"⟩) ∧
      ∃ x : LexFault, scan (Converter.fixedInt ⟨true, .w8⟩) "" "-129]".toList ⟨0, 0⟩ =
        .error (.lexical ⟨x, ⟨0, 0⟩, ""⟩) ∧ x.code = .L003 := by
  have hleast : Fragment.take? (" -0128..3".toList.dropWhile isGap) =
      some (.numeral, "-0128".toList) := by decide +kernel
  have hbelow : Fragment.take? ("-129]".toList.dropWhile isGap) =
      some (.numeral, "-129".toList) := by decide +kernel
  have hlegible : Legible "-0128".toList ∧ Legible "-129".toList := by
    refine ⟨⟨by decide, ?_⟩, ⟨by decide, ?_⟩⟩ <;> decide
  have ht : NamedType.Integral (.fixedInt ⟨true, .w8⟩) _ _ := .signed .w8
  obtain ⟨hok, -, -, hcanonical⟩ := scan_integer ht hleast "" ⟨0, 0⟩
  obtain ⟨-, hoverflow, -⟩ := scan_integer ht hbelow "" ⟨0, 0⟩
  have hin : -2 ^ (Width.w8.bits - 1) ≤ integerOf "-0128".toList ∧
    integerOf "-0128".toList ≤ 2 ^ (Width.w8.bits - 1) - 1 := by decide
  obtain ⟨htext, -, hback⟩ := hcanonical hlegible.1 hin
  exact ⟨hleast, hbelow, hok.2 ⟨hlegible.1, hin⟩, htext, hback "..3".toList rfl,
    hoverflow.2 ⟨hlegible.2, by decide⟩⟩

end ExprFront
