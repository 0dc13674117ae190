import ExprFront.Proofs.ExactTypes
import ExprFront.Proofs.LongestMatch
import ExprFront.Proofs.Rounding

/-!
# Floating point types

A literal is first rounded to a double.  A type of fixed width refuses a double that exceeds the
largest number of its format, and rounds any other one to the format.  The check comes before the
second rounding, but no double that passes it is rounded to an infinity.

* `NamedType.Floating` lists the floating point types with their formats.
* A literal denotes a rational number, and is read as the double that this number is rounded to
  (`Converter.readDouble_literal`, `BinaryFormat.roundsTo_literal`).
* A double either exceeds a format (`BinaryFormat.Exceeded`) and is refused, or becomes the nearest
  number of the format (`NamedType.Floating.converter_cases`).

Main result: `scan_float`.
-/

namespace ExprFront

open Number

/-! ## Doubles of literals -/

theorem Number.Plain.trim_isPadding {cs : List Char} (h : Plain cs) :
    Text.trim Text.isPadding cs = cs :=
  Text.trim_of_forall fun c hc => (spec_of_isPlain (h c hc)).2.1

theorem Number.Numeral.take?_of_read? {cs : List Char} {n : Numeral}
    (h : Numeral.read? cs = some n) : Numeral.take? cs = some (n, []) := by
  unfold read? at h
  split at h
  · next m htake =>
    cases h
    exact htake
  · cases h

theorem Converter.readDouble_literal {text : List Char} (htext : IsNumeral text) :
    readDouble (String.ofList text) = .ok (double.ofNumeral (Numeral.ofLiteral text)) := by
  obtain ⟨hwellFormed, hspelled⟩ := Numeral.ofLiteral_spelled htext
  have hplain := hwellFormed.plain
  have htake := Numeral.take?_of_read? (Numeral.read?_spelled hwellFormed)
  rw [hspelled] at hplain htake
  simp only [readDouble, String.toList_ofList, hplain.trim_isPadding, hplain.map_asciiDigit,
    hplain.ungroup_eq, takeDouble?, htake]

theorem rationalOf_eq (text : List Char) :
    rationalOf text = withSign (Numeral.ofLiteral text).negative
      ((Numeral.ofLiteral text).coefficient /
        (10 ^ (Numeral.ofLiteral text).fraction.length : ℕ)) := by
  rw [rationalOf, withSign, signed]
  split
  · push_cast
    rw [neg_div]
  · push_cast
    rfl

/-- A literal is rounded in one step from the number that it denotes. -/
theorem Number.BinaryFormat.roundsTo_literal {f : BinaryFormat} (hf : f.Proper) (text : List Char) :
    f.RoundsTo (rationalOf text) (f.ofNumeral (Numeral.ofLiteral text)) := by
  rw [rationalOf_eq]
  obtain ⟨n, hn⟩ : ∃ n, Numeral.ofLiteral text = n := ⟨_, rfl⟩
  have hexponent : n.exponent = 0 := by rw [← hn]; rfl
  have hpow : 10 ^ n.fraction.length ≠ 0 := (Nat.pow_pos (by decide)).ne'
  rw [hn, ofNumeral, if_pos (.inl hexponent), ofScaled]
  split
  · next hzero =>
    have hround := roundsTo_round hf n.negative 0 Nat.one_ne_zero
    rw [hzero]
    simpa using hround
  · have hscale : n.scale = -n.fraction.length := by rw [Numeral.scale, hexponent, zero_sub]
    have hround := roundsTo_round hf n.negative n.coefficient hpow
    rw [hscale]
    simpa using hround

/-! ## Types -/

/-- The floating point types: the format of a type, and how the type holds a number. -/
inductive NamedType.Floating : NamedType → BinaryFormat → (Binary → Value) → Prop where
  | plain : Floating .float double .float
  | fixed (t : FloatType) : Floating (.fixedFloat t) t.format (.fixedFloat t)

/-- The number is infinite, or its magnitude exceeds the largest number of the format. -/
def Number.BinaryFormat.Exceeded (f : BinaryFormat) (x : Binary) : Prop :=
  (∃ negative, x = .infinite negative) ∨ ∃ v, x.toRat? = some v ∧ f.maximum < |v|

theorem Number.BinaryFormat.not_exceeded {f : BinaryFormat} {x : Binary} {v : ℚ}
    (hv : x.toRat? = some v) (hle : |v| ≤ f.maximum) : ¬ f.Exceeded x := by
  rintro (⟨negative, rfl⟩ | ⟨w, hw, hlt⟩)
  · cases hv
  · cases hv.symm.trans hw
    exact absurd hle (not_le.2 hlt)

/-- A number that a format does not exceed is checked as such. -/
theorem Converter.withinFormat_eq {f : BinaryFormat} {x : Binary} {v : ℚ} (hv : x.toRat? = some v) :
    withinFormat f x = decide (|v| ≤ f.maximum) := by
  cases x with
  | infinite | nan => cases hv
  | finite negative m e =>
    rw [Binary.toRat?_finite] at hv
    obtain rfl := Option.some.inj hv
    rw [withinFormat, abs_withSign negative (by positivity), dyadic_eq]

section Converters

variable {t : NamedType} {f : BinaryFormat} {value : Binary → Value} (ht : t.Floating f value)
  {s : String} {q : ℚ} {x : Binary} (hread : Converter.readDouble s = .ok x)
  (hx : double.RoundsTo q x)

include ht hread hx

/-- A double becomes the nearest number of the format, unless it exceeds the format. -/
theorem NamedType.Floating.converter_cases :
    (¬ f.Exceeded x ∧ ∃ v y, x.toRat? = some v ∧ f.Nearest v y ∧ t.converter s = .ok (value y)) ∨
      (f.Exceeded x ∧ ∃ e, t.converter s = .error e ∧ e.kind = .overflow) := by
  rcases hx with ⟨-, hnearest⟩ | ⟨-, hinfinite⟩
  · obtain ⟨v, hv, hle⟩ := hnearest.exists_value
    cases ht with
    | plain =>
      have hfinite := hnearest.isFinite
      refine .inl ⟨BinaryFormat.not_exceeded hv hle, v, x, hv, hnearest.self hv, ?_⟩
      simp only [converter, Converter.float, hread, hfinite, if_true]
    | fixed t =>
      by_cases hbound : |v| ≤ t.format.maximum
      · have hconvert := BinaryFormat.nearest_convert t.proper_format hv hbound
        refine .inl ⟨BinaryFormat.not_exceeded hv hbound, v, _, hv, hconvert, ?_⟩
        simp only [converter, Converter.fixedFloat, hread, Converter.withinFormat_eq hv, hbound,
          decide_true, if_true]
      · refine .inr ⟨.inr ⟨v, hv, not_le.1 hbound⟩, .notFiniteIn s t, ?_, rfl⟩
        simp only [converter, Converter.fixedFloat, hread, Converter.withinFormat_eq hv, hbound,
          decide_false, Bool.false_eq_true, if_false]
  · subst hinfinite
    refine .inr ⟨.inl ⟨_, rfl⟩, ?_⟩
    cases ht with
    | plain =>
      refine ⟨.notFinite s, ?_, rfl⟩
      simp only [converter, Converter.float, hread, Binary.isFinite, Bool.false_eq_true, if_false]
    | fixed t =>
      refine ⟨.notFiniteIn s t, ?_, rfl⟩
      simp only [converter, Converter.fixedFloat, hread, Converter.withinFormat, Bool.false_eq_true,
        if_false]

end Converters

/-! ## Scanning -/

/-- A literal of a floating point type is never infinite.  It is rounded to a double first.  It
overflows exactly if that is infinite or exceeds the largest number of the format, and otherwise
becomes the number of the format that is nearest to the double.  Nothing else is wrong with it. -/
theorem scan_float {t : NamedType} {f : BinaryFormat} {value : Binary → Value}
    (ht : t.Floating f value) {code text : List Char}
    (htake : Fragment.take? (code.dropWhile isGap) = some (.numeral, text)) (filename : String)
    (pos : Position) :
    let start := pos.advance (code.takeWhile isGap)
    let result := scan t.converter filename code pos
    let Overflows :=
      ∃ x : LexFault, result = .error (.lexical ⟨x, start, filename⟩) ∧ x.code = .L003
    ∃ x, Converter.readDouble (String.ofList text) = .ok x ∧ double.RoundsTo (rationalOf text) x ∧
      ((∃ v y s, x.toRat? = some v ∧ f.Nearest v y ∧ y.isFinite = true ∧ result = .ok s ∧
        s.token = ⟨.number (value y), start, String.ofList text⟩) ∨ Overflows) ∧
      (Overflows ↔ f.Exceeded x) ∧
      ∀ e : LexError, result = .error (.lexical e) → e.fault.code ≠ .L002 := by
  intro start result Overflows
  have htext := Fragment.isNumeral_of_take? htake
  have hread := Converter.readDouble_literal htext
  have hrounds := BinaryFormat.roundsTo_literal proper_double text
  obtain ⟨x, hx⟩ : ∃ x, double.ofNumeral (Numeral.ofLiteral text) = x := ⟨_, rfl⟩
  rw [hx] at hread hrounds
  refine ⟨x, hread, hrounds, ?_⟩
  have hscan := scan_of_take?_numeral t.converter htake filename pos
  rcases ht.converter_cases hread hrounds with
    ⟨hwithin, v, y, hv, hnearest, hconvert⟩ | ⟨hexceeded, e, hconvert, hkind⟩
  · rw [hconvert] at hscan
    obtain ⟨s, hs, htoken⟩ := hscan
    have hno : ∀ e : LexError, result ≠ .error (.lexical e) := fun e he => by cases hs.symm.trans he
    refine ⟨.inl ⟨v, y, s, hv, hnearest, hnearest.isFinite, hs, htoken⟩, ⟨?_, ?_⟩, ?_⟩
    · rintro ⟨x, hx, -⟩
      exact absurd hx (hno _)
    · exact fun h => absurd h hwithin
    · exact fun e he => absurd he (hno e)
  · have hresult : result = .error (.lexical
        ⟨.overflow (String.ofList text) e.message, start, filename⟩) := by
      rw [hconvert] at hscan
      have hfailure : numeralFailure filename (String.ofList text) start e =
          .lexical ⟨.overflow (String.ofList text) e.message, start, filename⟩ := by
        simp only [numeralFailure, hkind]
      exact hscan.trans (congrArg Except.error hfailure)
    have hoverflows : Overflows := ⟨_, hresult, rfl⟩
    refine ⟨.inr hoverflows, ⟨fun _ => hexceeded, fun _ => hoverflows⟩, fun e he => ?_⟩
    cases hresult.symm.trans he
    show Code.L003 ≠ Code.L002
    decide

/-- In half precision a literal above half of the smallest number becomes that number, and one
that would still be rounded down to the largest number overflows all the same. -/
theorem scan_float_half :
    NamedType.Floating (.fixedFloat .float16) half (.fixedFloat .float16) ∧
      Fragment.take? ("\t-0.00000003;".toList.dropWhile isGap) =
        some (.numeral, "-0.00000003".toList) ∧
      Fragment.take? ("65519.99".toList.dropWhile isGap) = some (.numeral, "65519.99".toList) ∧
      (∃ x v s, Converter.readDouble "-0.00000003" = .ok x ∧ x.toRat? = some v ∧
        half.Nearest v (.finite true 1 (-24)) ∧
        scan (Converter.fixedFloat .float16) "" "\t-0.00000003;".toList ⟨0, 0⟩ = .ok s ∧
        s.token = ⟨.number (.fixedFloat .float16 (.finite true 1 (-24))), ⟨0, 1⟩, "-0.00000003"⟩) ∧
      ∃ x y, Converter.readDouble "65519.99" = .ok x ∧ half.Exceeded x ∧
        scan (Converter.fixedFloat .float16) "" "65519.99".toList ⟨0, 0⟩ =
          .error (.lexical ⟨y, ⟨0, 0⟩, ""⟩) ∧ y.code = .L003 := by
  have ht : NamedType.Floating (.fixedFloat .float16) half (.fixedFloat .float16) := .fixed .float16
  have hsmall : Fragment.take? ("\t-0.00000003;".toList.dropWhile isGap) =
      some (.numeral, "-0.00000003".toList) := by decide
  have hlarge : Fragment.take? ("65519.99".toList.dropWhile isGap) =
      some (.numeral, "65519.99".toList) := by decide
  have haccepted : (scan (Converter.fixedFloat .float16) "" "\t-0.00000003;".toList ⟨0, 0⟩).map
      Scan.token = .ok ⟨.number (.fixedFloat .float16 (.finite true 1 (-24))), ⟨0, 1⟩,
        "-0.00000003"⟩ := by
    decide +kernel
  have hrefused : (scan (Converter.fixedFloat .float16) "" "65519.99".toList ⟨0, 0⟩).isOk =
      false := by
    decide +kernel
  refine ⟨ht, hsmall, hlarge, ?_, ?_⟩
  · obtain ⟨x, hread, -, ⟨v, y, s, hv, hnearest, -, hresult, htoken⟩ | ⟨z, hresult, -⟩, -⟩ :=
      scan_float ht hsmall "" ⟨0, 0⟩
    · rw [NamedType.converter] at hresult
      rw [hresult] at haccepted
      have htoken' := Except.ok.inj haccepted
      cases htoken.symm.trans htoken'
      exact ⟨x, v, s, hread, hv, hnearest, hresult, htoken'⟩
    · rw [NamedType.converter] at hresult
      rw [hresult] at haccepted
      cases haccepted
  · obtain ⟨x, hread, -, ⟨v, y, s, -, -, -, hresult, -⟩ | ⟨z, hresult, hcode⟩, hiff, -⟩ :=
      scan_float ht hlarge "" ⟨0, 0⟩
    · rw [NamedType.converter] at hresult
      rw [hresult] at hrefused
      cases hrefused
    · exact ⟨x, z, hread, hiff.1 ⟨z, hresult, hcode⟩, hresult, hcode⟩

end ExprFront
