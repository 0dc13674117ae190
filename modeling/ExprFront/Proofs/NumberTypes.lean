import ExprFront.Proofs.Failures
import ExprFront.Proofs.Numerals
import ExprFront.Proofs.Rounding
import ExprFront.NumberType

/-!
# What the number types give

The number types that have a name convert a numeral to a number or refuse it.  They never give
nothing (`NamedType.converter_ne_nothing`) nor an undefined decimal
(`NamedType.isUndefined_of_converter`), and never break down (`NamedType.kind_of_converter`).

No integer of more than `maxDigits` digits is written.  Most number types have no such integers
to begin with (`NamedType.writable_of_converter`): an integer is read from at most `maxDigits`
digits, and a number of fixed width, or a length equal to one, is bounded by its format.  For the
floating point formats this rests on `BinaryFormat.fits_round`: rounding gives a significand
of at most `2 ^ precision` and a last place of at most `greatest`.  What remains are exact decimals,
whose lengths may be too long, and exact fractions.
-/

namespace ExprFront

open Number

/-! ## Numbers that can be written -/

/-- A power of two below the bound can be written. -/
theorem two_pow_lt {k : Nat} (hk : k < maxDigits) : 2 ^ k < 10 ^ maxDigits :=
  (Nat.pow_le_pow_left (by decide) k).trans_lt (Nat.pow_lt_pow_right (by decide) hk)

theorem Value.shortInteger_of_le {n k : Nat} (hk : k < maxDigits) (hn : n ≤ 2 ^ k) :
    shortInteger n = true := by
  have hlt := hn.trans_lt (two_pow_lt hk)
  simpa [shortInteger] using hlt

/-- A run of digits denotes a number of no more digits. -/
theorem digitsValue_lt {cs : List Char} (h : ∀ c ∈ cs, c.isDigit = true) :
    digitsValue cs < 10 ^ cs.length := by
  unfold digitsValue
  induction cs with
  | nil => decide
  | cons c cs ih =>
    have htail := ih fun d hd => h d (List.mem_cons_of_mem c hd)
    obtain ⟨-, hc⟩ := Char.isDigit_iff_toNat.1 (h c List.mem_cons_self)
    have hdigit : c.toNat - '0'.toNat ≤ 9 := by
      have hnine : '9'.toNat = 57 := rfl
      have hzero : '0'.toNat = 48 := rfl
      omega
    rw [Nat.ofDigitChars_cons, Nat.ofDigitChars_eq_ofDigitChars_zero, List.length_cons,
      Nat.pow_succ, Nat.mul_zero, Nat.zero_add]
    have hmul := Nat.mul_le_mul_left (10 ^ cs.length) hdigit
    omega

namespace Converter

theorem boundedDigits_lt {cs : List Char} {n : Nat} (hcs : ∀ c ∈ cs, c.isDigit = true)
    (h : boundedDigits cs = .ok n) : n < 10 ^ maxDigits := by
  unfold boundedDigits at h
  split at h
  · cases h
  · next hlength =>
    cases h
    exact (digitsValue_lt hcs).trans_le (Nat.pow_le_pow_right (by decide) (Nat.not_lt.1 hlength))

/-- What is left of a run of digits and underscores are digits. -/
theorem isDigit_of_ungroup {cs ds : List Char} {p : Char → Bool}
    (hp : ∀ c, p c = true → c.isDigit = true ∨ c = '_') (h : ungroup (cs.takeWhile p) = some ds) :
    ∀ c ∈ ds, c.isDigit = true := by
  unfold ungroup at h
  split at h
  · cases h
    intro c hc
    obtain ⟨hmem, hne⟩ := List.mem_filter.1 hc
    have hrun : p c = true := List.all_eq_true.1 (List.all_takeWhile) c hmem
    exact (hp c hrun).resolve_right (by simpa using hne)
  · cases h

theorem readInteger_lt {s : String} {n : Int} (h : readInteger s = .ok n) :
    n.natAbs < 10 ^ maxDigits := by
  unfold readInteger at h
  dsimp only at h
  split at h
  · cases h
  · cases h
  · next ds hds =>
    split at h
    · cases h
    · next m hm =>
      have hlt := boundedDigits_lt (isDigit_of_ungroup (by simp) hds) hm
      split at h
      · cases h
        split
        · simpa using hlt
        · simpa using hlt
      · cases h

theorem fits_of_readDouble {s : String} {x : Binary} (h : readDouble s = .ok x) :
    double.Fits x := by
  unfold readDouble at h
  split at h
  · cases h
  · split at h
    · next hx =>
      cases h
      unfold takeDouble? at hx
      split at hx
      · cases hx
        exact BinaryFormat.fits_ofNumeral (by decide) _
      · dsimp only at hx
        split at hx
        · cases hx
          trivial
        · split at hx
          · cases hx
            trivial
          · split at hx
            · cases hx
              trivial
            · cases hx
    · cases h

end Converter

/-- The value can be written, and so can the length of a range that is equal to it. -/
structure Value.Writable (v : Value) : Prop where
  printable : v.isPrintable = true
  length : ∀ n, v.whole? = some n → shortInteger n = true

/-- Only exact decimals and fractions have integers that are too long to be written. -/
theorem NamedType.writable_of_converter {t : NamedType} (hdecimal : t ≠ .decimal)
    (hfraction : t ≠ .fraction) {s : String} {v : Value} (h : t.converter s = .ok v) :
    v.Writable := by
  cases t with
  | decimal => exact absurd rfl hdecimal
  | fraction => exact absurd rfl hfraction
  | integer =>
    simp only [converter, Converter.integer, Except.map] at h
    split at h
    · cases h
    · next n hn =>
      cases h
      have hlt := Converter.readInteger_lt hn
      refine ⟨by simpa [Value.isPrintable, Value.shortInteger] using hlt, fun k hk => ?_⟩
      have hkn : (n : Rat) = (k : Int) := Option.some.inj (Value.whole?_eq_some_iff.1 hk)
      obtain rfl := Rat.intCast_inj.1 hkn
      simpa [Value.shortInteger] using hlt
  | fixedInt t =>
    simp only [converter, Converter.fixedInt] at h
    split at h
    · cases h
    · next n hn =>
      split at h
      · cases h
      · next hrange =>
        cases h
        refine ⟨rfl, fun k hk => ?_⟩
        have hkn : (n : Rat) = (k : Int) := Option.some.inj (Value.whole?_eq_some_iff.1 hk)
        obtain rfl := Rat.intCast_inj.1 hkn
        have hle : k ≤ 2 ^ 64 := by
          obtain ⟨signed, width⟩ := t
          cases signed <;> cases width <;>
            simp only [IntType.least, IntType.greatest, Width.bits] at hrange <;> omega
        exact Value.shortInteger_of_le (by decide) hle
  | float =>
    simp only [converter, Converter.float] at h
    split at h
    · cases h
    · next x hx =>
      split at h
      · cases h
        refine ⟨rfl, fun k hk => ?_⟩
        have hle := (Converter.fits_of_readDouble hx).le_of_toRat? (Value.whole?_eq_some_iff.1 hk)
        exact Value.shortInteger_of_le (by decide) hle
      · cases h
  | fixedFloat t =>
    simp only [converter, Converter.fixedFloat] at h
    split at h
    · cases h
    · split at h
      · cases h
        refine ⟨rfl, fun k hk => ?_⟩
        have hformat : t.format.least ≤ t.format.greatest := by cases t <;> decide
        have hle := (BinaryFormat.fits_convert hformat _).le_of_toRat?
          (Value.whole?_eq_some_iff.1 hk)
        exact Value.shortInteger_of_le (by cases t <;> decide) hle
      · cases h

/-! ## Conversions that are refused -/

/-- A failure of two conversions in a row is one of the first or one of the second. -/
theorem except_bind_error {ε α β : Type} {x : Except ε α} {f : α → Except ε β} {e : ε}
    (h : (x >>= f) = .error e) : x = .error e ∨ ∃ a, f a = .error e := by
  cases x with
  | error e' =>
    cases h
    exact .inl rfl
  | ok a => exact .inr ⟨a, h⟩

/-- A failure of a conversion that is followed by a constructor is one of the conversion. -/
theorem error_of_map {ε α β : Type} {x : Except ε α} {f : α → β} {e : ε}
    (h : x.map f = .error e) : x = .error e := by
  cases x with
  | error e' =>
    cases h
    rfl
  | ok a => cases h

namespace Converter

variable {s : String} {e : ConversionError}

theorem kind_of_boundedDigits {cs : List Char} (h : boundedDigits cs = .error e) :
    e.kind ≠ .runtime := by
  unfold boundedDigits at h
  split at h
  · cases h
    simp [ConversionError.kind]
  · cases h

theorem kind_of_readInteger (h : readInteger s = .error e) : e.kind ≠ .runtime := by
  unfold readInteger at h
  dsimp only at h
  split at h
  · cases h
    simp [ConversionError.kind]
  · cases h
    simp [ConversionError.kind]
  · split at h
    · next he =>
      cases h
      exact kind_of_boundedDigits he
    · split at h
      · cases h
      · cases h
        simp [ConversionError.kind]

theorem kind_of_quotient {num : Int} {den : Nat} (h : quotient num den = .error e) :
    e.kind ≠ .runtime := by
  unfold quotient at h
  split at h
  · cases h
    simp [ConversionError.kind]
  · cases h

theorem kind_of_fractionOfNumeral {n : Numeral} (h : fractionOfNumeral n = .error e) :
    e.kind ≠ .runtime := by
  rcases except_bind_error h with h | ⟨whole, h⟩
  · exact kind_of_boundedDigits h
  rcases except_bind_error h with h | ⟨fraction, h⟩
  · exact kind_of_boundedDigits h
  rcases except_bind_error h with h | ⟨_, h⟩
  · exact kind_of_boundedDigits h
  · exact kind_of_quotient h

theorem kind_of_fractionOfText {cs : List Char} (h : fractionOfText s cs = .error e) :
    e.kind ≠ .runtime := by
  unfold fractionOfText at h
  dsimp only at h
  split at h
  · split at h
    · cases h
      simp [ConversionError.kind]
    · rcases except_bind_error h with h | ⟨num, h⟩
      · exact kind_of_boundedDigits h
      rcases except_bind_error h with h | ⟨den, h⟩
      · exact kind_of_boundedDigits h
      · exact kind_of_quotient h
  · split at h
    · cases h
      simp [ConversionError.kind]
    · rcases except_bind_error h with h | ⟨_, h⟩
      · exact kind_of_boundedDigits h
      · cases h
        simp [ConversionError.kind]
  · cases h
    simp [ConversionError.kind]

theorem kind_of_readFraction (h : readFraction s = .error e) : e.kind ≠ .runtime := by
  unfold readFraction at h
  split at h
  · cases h
    simp [ConversionError.kind]
  · split at h
    · exact kind_of_fractionOfNumeral h
    · exact kind_of_fractionOfText h

theorem kind_of_readDecimal (h : readDecimal s = .error e) : e.kind ≠ .runtime := by
  unfold readDecimal at h
  split at h
  · cases h
  · cases h
    simp [ConversionError.kind]
  · cases h
    simp [ConversionError.kind]

end Converter

/-- A number type that has a name converts a numeral or refuses it; it does not break down. -/
theorem NamedType.kind_of_converter {t : NamedType} {s : String} {e : ConversionError}
    (h : t.converter s = .error e) : e.kind ≠ .runtime := by
  cases t with
  | integer => exact Converter.kind_of_readInteger (error_of_map h)
  | decimal => exact Converter.kind_of_readDecimal (error_of_map h)
  | fraction => exact Converter.kind_of_readFraction (error_of_map h)
  | fixedInt t =>
    simp only [converter, Converter.fixedInt] at h
    split at h
    · next he =>
      cases h
      exact Converter.kind_of_readInteger he
    · split at h
      · cases h
        simp [ConversionError.kind]
      · cases h
  | float | fixedFloat t =>
    simp only [converter, Converter.float, Converter.fixedFloat] at h
    split at h
    · next he =>
      cases h
      simp [Converter.readDouble_error he, ConversionError.kind]
    · split at h
      · cases h
      · cases h
        simp [ConversionError.kind]

/-- No number type that has a name converts a numeral to nothing. -/
theorem NamedType.converter_ne_nothing (t : NamedType) (text : String) :
    t.converter text ≠ .ok .nothing := by
  intro h
  cases t with
  | integer | decimal | fraction =>
    simp only [converter, Converter.integer, Converter.decimal, Converter.fraction,
      Except.map] at h
    split at h
    · cases h
    · cases h
  | float | fixedInt t | fixedFloat t =>
    simp only [converter, Converter.float, Converter.fixedInt, Converter.fixedFloat] at h
    split at h
    · cases h
    · split at h
      · cases h
      · cases h

/-- A decimal is undefined only if it is written so, and no numeral is. -/
theorem NamedType.isUndefined_of_converter {t : NamedType} {text : List Char}
    (htext : IsNumeral text) {v : Value} (h : t.converter (String.ofList text) = .ok v) :
    v.isUndefined = false := by
  cases t with
  | decimal =>
    rw [converter, Converter.decimal, Converter.readDecimal, Decimal.read_literal htext,
      Decimal.ofNumeral] at h
    split at h
    · next d hd =>
      cases h
      split at hd
      · cases hd
      · cases hd
        rfl
    · cases h
    · cases h
  | integer | fraction =>
    simp only [converter, Converter.integer, Converter.fraction, Except.map] at h
    split at h
    · cases h
    · cases h
      rfl
  | float | fixedInt t | fixedFloat t =>
    simp only [converter, Converter.float, Converter.fixedInt, Converter.fixedFloat] at h
    split at h
    · cases h
    · split at h
      · cases h <;> rfl
      · cases h <;> rfl

end ExprFront
