import ExprFront.Proofs.Soundness

/-!
# How parsing a source can fail

The failures of the front end form a larger type than what parsing a source can end in.
Settings that `Config.make` accepts reach far enough ahead for the grammar, so a look out of
reach does not occur.  The grammar never runs out of fuel, and it takes the parts of an
assignment only where it has seen them.  What remains are verdicts on the source, and every
one of them names it (`Grammar.Verdict.cases_of_valid`).

Two conditions are on the converter: a breakdown on a numeral is passed on as it is, and so is
the breakdown at a range whose length is an undefined decimal (`Config.GivesUndefined`).
-/

namespace ExprFront

/-! ## Converters that decide -/

/-- The converter breaks down on no numeral: it gives a value or refuses the numeral. -/
def Config.Decides (c : Config) : Prop :=
  ∀ text, IsNumeral text → ∀ e, c.convert (String.ofList text) = .error e → e.kind ≠ .runtime

theorem Converter.readDouble_error {s : String} {e : ConversionError}
    (h : Converter.readDouble s = .error e) : e = .notFloat s := by
  unfold Converter.readDouble at h
  split at h
  · cases h
    rfl
  · split at h
    · cases h
    · cases h
      rfl

theorem Config.decides_standard : Config.standard.Decides := by
  intro text _ e he
  change Converter.float (String.ofList text) = .error e at he
  unfold Converter.float at he
  split at he
  · next e' hread =>
    cases he
    rw [Converter.readDouble_error hread]
    nofun
  · split at he
    · cases he
    · cases he
      nofun

/-! ## Codes -/

theorem ParseFault.Possible.code {x : ParseFault} (h : x.Possible) :
    x.code ∈ [.P001, .P002, .P003, .P004, .P005, .P007, .P008] := by
  cases x with
  | invalidTarget | noProgress => exact h.elim
  | unexpectedToken | missingToken | unexpectedComma | unclosed | invalidExpression
  | unexpectedEnd | invalidRange => simp [ParseFault.code]

theorem LexFault.code_mem (x : LexFault) : x.code ∈ [.L001, .L002, .L003] := by
  cases x <;> simp [LexFault.code]

/-! ## Undefined lengths -/

/-- The converter gives an undefined decimal for some numeral. -/
def Config.GivesUndefined (c : Config) : Prop :=
  ∃ text v, IsNumeral text ∧ c.convert (String.ofList text) = .ok v ∧ v.isUndefined = true

/-- An undefined length in a source was made by the converter. -/
theorem UndefinedLength.givesUndefined {c : Config} {source : String} {t : Token}
    (h : UndefinedLength (c.session source).ahead.tokens t) : c.GivesUndefined := by
  obtain ⟨before, opening, first, dots, after, start, v, htokens, -, -, -, ht, hv⟩ := h
  have hmem : t ∈ (c.session source).ahead.tokens := by simp [htokens]
  obtain ⟨text, htext, hconvert⟩ :=
    (Cursor.start source c.filename c.convert).convert_of_mem_ahead t hmem v ht
  exact ⟨text, v, htext, hconvert, hv⟩

/-! ## Verdicts -/

/-- A failure of parsing is one of scanning or one of the grammar, or it comes from an undefined
length. -/
theorem Grammar.Verdict.cases_of_valid {c : Config} (hvalid : c.Valid) (hdecides : c.Decides)
    {source : String} {f : Failure}
    (h : Grammar.Verdict ParseFault.Possible c.filename (c.session source) f) :
    (∃ e : LexError, f = .lexical e ∧ e.filename = c.filename) ∨
      (∃ x : ParseFault, f = .grammatical ⟨x, c.filename⟩ ∧ x.Possible) ∨
      f = .breakdown .undefinedOrder ∧
        ∃ t, UndefinedLength (c.session source).ahead.tokens t := by
  cases h with
  | scanning hf =>
    rcases Buffer.refuses_of_ahead hf with hlexical | ⟨text, e, htext, he, hkind, -⟩
    · exact .inl hlexical
    · exact absurd hkind (hdecides text htext e he)
  | @shallow offset hc ho =>
    have hcapacity : (c.session source).capacity = c.maxLookahead := rfl
    unfold Config.Valid minLookahead at hvalid
    omega
  | fault hx => exact .inr (.inl ⟨_, rfl, hx⟩)
  | undefined _ ht => exact .inr (.inr ⟨rfl, _, ht⟩)

end ExprFront
