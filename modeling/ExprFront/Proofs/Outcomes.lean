import ExprFront.Proofs.Failures
import ExprFront.Proofs.NumberTypes
import ExprFront.Proofs.Ranges

/-!
# What parsing a source ends in

Parsing ends for every source, and it should end with a verdict on the source: a program, or one
failure that has a code and names the source (`Config.Judges`).  One thing can come between.
The length of a range is compared with zero, an undefined decimal cannot be compared, and nothing
between that comparison and the caller of the parser turns its failure into a fault.

So a verdict is certain exactly if the converter gives an undefined decimal for no numeral.  In one
direction a breakdown is traced back to the length that caused it
(`Grammar.Verdict.cases_of_valid`).  In the other the numeral is written into a range, and that
range is followed from the rule for lists and ranges (`aggregate_undefined`) up to the program
(`program_undefined`).

Main result: `parseProgram_outcomes`.
-/

namespace ExprFront

/-! ## A range of undefined length -/

namespace Grammar

open Buffer

section Undefined

variable {b : Buffer} {opening first dots t : Token} {start v : Value} {after : List Token}
  (hcapacity : 2 ≤ b.capacity) (hb : b.ahead.tokens = opening :: first :: dots :: t :: after)
  (ho : opening.lexeme = .particle .leftBracket) (hf : first.lexeme = .number start)
  (hd : dots.lexeme = .particle .range) (ht : t.lexeme = .number v) (hv : v.isUndefined = true)

include hcapacity hb hf hd ht hv

theorem aggregate_undefined (fuel : Nat) (expr : Parser Expr) :
    ∃ b', aggregate fuel expr b = .error (.breakdown .undefinedOrder) b' := by
  obtain ⟨b₁, hb₁, htokens, hrun⟩ := aggregate_eq fuel expr hcapacity hb hf hd
  have hwhole : ∀ n : Nat, v.toRat? ≠ some (n : Rat) := by
    intro n hn
    rw [← Value.whole?_eq_some_iff, Value.whole?_of_isUndefined hv] at hn
    cases hn
  obtain ⟨b₂, hlength, -⟩ := rangeCount_bad (hb₁.capacity ▸ hcapacity) htokens ht hwhole
  rw [lengthFailure, if_pos hv] at hlength
  refine ⟨b₂, ?_⟩
  rw [hrun]
  exact bind_error hlength _

include ho

theorem primary_undefined (fuel : Nat) (expr : Parser Expr) :
    ∃ b', primary fuel expr b = .error (.breakdown .undefinedOrder) b' := by
  have hpeek : Answers (peek 0) b b.ahead.tokens.head? b.ahead.tokens :=
    answers_of_look (meets_peek_first b) rfl fun _ h => h
  obtain ⟨b₁, hrun, hb₁⟩ := hpeek.look_clear (fails_peek_first rfl) hcapacity (.of_cons hb)
  obtain ⟨b₂, haggregate⟩ := aggregate_undefined (hb₁.capacity ▸ hcapacity)
    (hb₁.tokens.symm.trans hb) hf hd ht hv fuel expr
  refine ⟨b₂, (bind_ok hrun _).trans ?_⟩
  rw [hb, List.head?_cons, Option.map_some, ho]
  exact haggregate

theorem expression_undefined (fuel : Nat) :
    ∃ b', expression (fuel + 1) b = .error (.breakdown .undefinedOrder) b' := by
  have hops : ∀ op ∈ unaryOperators, ¬ Next op b.ahead.tokens := by
    intro op hop
    have hne : ∀ op ∈ unaryOperators, Particle.leftBracket ≠ op := by decide
    rw [hb]
    exact not_next_cons ho (hne op hop)
  obtain ⟨b₁, hrun, hb₁⟩ := (answers_operator?_none rfl hops).look_clear
    (fails_operator? unaryOperators rfl) hcapacity (.of_cons hb)
  obtain ⟨b₂, hprimary⟩ := primary_undefined (hb₁.capacity ▸ hcapacity)
    (hb₁.tokens.symm.trans hb) ho hf hd ht hv (fuel + 1) (expression fuel)
  exact ⟨b₂, expression_error hrun hprimary⟩

theorem statement_undefined :
    ∃ b', statement b = .error (.breakdown .undefinedOrder) b' := by
  have hassign : ¬ NextTwo .identifier .assign b.ahead.tokens := by
    rw [hb]
    exact (Opens.of_particle ho (by decide)).assign
  have hfails : FailsAfter (· = []) [] atAssignment b := by
    refine fails_nextTwo .identifier .assign rfl fun u hu _ => ?_
    rw [hb] at hu
    cases hu
  obtain ⟨b₁, hrun, hb₁⟩ :=
    (answers_nextTwo_false rfl hassign).look_clear hfails hcapacity (.of_cons hb)
  obtain ⟨b₂, hexpression⟩ := expression_undefined (hb₁.capacity ▸ hcapacity)
    (hb₁.tokens.symm.trans hb) ho hf hd ht hv b₁.weight
  have hbare : bareStatement b = .error (.breakdown .undefinedOrder) b₂ :=
    (bind_ok hrun _).trans (bind_error hexpression _)
  refine ⟨b₂, ?_⟩
  rw [statement, hbare]
  rfl

/-- A program breaks down at once that begins with a range of undefined length. -/
theorem program_undefined :
    ∃ b', program b = .error (.breakdown .undefinedOrder) b' := by
  have hend : Answers isEnd b false b.ahead.tokens := by
    refine answers_of_look (meets_isEnd _ _ b) rfl fun r hr => ?_
    cases r with
    | false => rfl
    | true =>
      rw [if_pos rfl, hb] at hr
      cases hr.1
  obtain ⟨b₁, hrun, hb₁⟩ := hend.look_clear (fails_isEnd rfl) hcapacity (.of_cons hb)
  obtain ⟨b₂, hstatement⟩ := statement_undefined (hb₁.capacity ▸ hcapacity)
    (hb₁.tokens.symm.trans hb) ho hf hd ht hv
  exact ⟨b₂, (bind_ok hrun _).trans (bind_error hstatement _)⟩

end Undefined

end Grammar

/-- A converter that gives an undefined decimal makes some source break down: the numeral, as the
start and as the length of a range. -/
theorem Config.GivesUndefined.exists_source {c : Config} (hvalid : c.Valid)
    (h : c.GivesUndefined) :
    ∃ source, parseProgram c source = .error (.breakdown .undefinedOrder) := by
  obtain ⟨text, v, htext, hconvert, hv⟩ := h
  let t := Token.ofNumeral text v
  have hisolated : ∀ u ∈ [Token.ofParticle .leftBracket, t, Token.ofParticle .range, t],
      u.Isolated c.convert := by
    have ht : t.Isolated c.convert := Token.isolated_ofNumeral htext hconvert
    simp [Token.isolated_ofParticle, ht]
  obtain ⟨source, -, hsame⟩ := c.exists_source hisolated
  refine ⟨source, ?_⟩
  generalize hb : (c.session source).ahead.tokens = ts at hsame
  rcases hsame with _ | ⟨ho, _ | ⟨hf, _ | ⟨hd, _ | ⟨ht, _⟩⟩⟩⟩
  have hcapacity : 2 ≤ (c.session source).capacity := hvalid
  obtain ⟨b', hrun⟩ := Grammar.program_undefined hcapacity hb ho.1.symm hf.1.symm hd.1.symm
    ht.1.symm hv
  rw [parseProgram, hrun]

/-! ## Verdicts -/

/-- Parsing the source ends with a verdict: a program of no more statements than tokens, or one
failure of scanning or of the grammar.  A failure has a code and carries the name of the source. -/
def Config.Judges (c : Config) (source : String) : Prop :=
  (∃ ss ts, parseProgram c source = .ok ss ∧
    tokenize source c.filename c.convert false = .ok ts ∧
    ss.length ≤ (significant ts).length) ∨
  (∃ e : LexError, parseProgram c source = .error (.lexical e) ∧
    e.fault.code ∈ [.L001, .L002, .L003] ∧ e.report.diagnostic.filename = c.filename) ∨
  ∃ e : ParseError, parseProgram c source = .error (.grammatical e) ∧
    e.fault.code ∈ [.P001, .P002, .P003, .P004, .P005, .P007, .P008] ∧
    e.fault.Possible ∧ e.report.diagnostic.filename = c.filename

theorem Config.Judges.ne_breakdown {c : Config} {source : String} (h : c.Judges source)
    (e : ConversionError) : parseProgram c source ≠ .error (.breakdown e) := by
  intro he
  rcases h with ⟨ss, ts, hrun, -⟩ | ⟨e', hrun, -⟩ | ⟨e', hrun, -⟩
  all_goals
    rw [he] at hrun
    cases hrun

/-- For settings that `Config.make` accepts and a converter that breaks down on no numeral, parsing
ends with a verdict on the source, except at a range whose length is an undefined decimal.  There
the failed comparison is passed on as it is.  No source ends so exactly if the converter gives an
undefined decimal for no numeral. -/
theorem parseProgram_outcomes {c : Config} (hvalid : c.Valid) (hdecides : c.Decides) :
    (∀ source, c.Judges source ∨
      parseProgram c source = .error (.breakdown .undefinedOrder) ∧
        ∃ t, UndefinedLength (c.scanned source) t) ∧
    ((∀ source, c.Judges source) ↔ ¬ c.GivesUndefined) := by
  have hcases : ∀ source, c.Judges source ∨
      parseProgram c source = .error (.breakdown .undefinedOrder) ∧
        ∃ t, UndefinedLength (c.scanned source) t := by
    intro source
    have hcases := parseProgram_cases c source
    cases hrun : parseProgram c source with
    | ok ss =>
      rw [hrun] at hcases
      obtain ⟨hfailure, hprogram⟩ := hcases
      obtain ⟨ts, hts, hsignificant⟩ := tokenize_of_ahead hfailure false
      refine .inl (.inl ⟨ss, ts, hrun, hts, ?_⟩)
      rw [hsignificant]
      exact hprogram.length_le
    | error f =>
      rw [hrun] at hcases
      rcases hcases.cases_of_valid hvalid hdecides with
        ⟨e, rfl, hfile⟩ | ⟨x, rfl, hx⟩ | ⟨rfl, hundefined⟩
      · exact .inl (.inr (.inl ⟨e, hrun, e.fault.code_mem, hfile⟩))
      · exact .inl (.inr (.inr ⟨⟨x, c.filename⟩, hrun, hx.code, hx, rfl⟩))
      · exact .inr ⟨rfl, hundefined⟩
  refine ⟨hcases, fun hjudges hgives => ?_, fun hgives source => ?_⟩
  · obtain ⟨source, hrun⟩ := hgives.exists_source hvalid
    exact (hjudges source).ne_breakdown _ hrun
  · refine (hcases source).resolve_right ?_
    rintro ⟨-, t, ht⟩
    exact hgives ht.givesUndefined

/-- Under the standard settings every source has a verdict; a call that ends after a comma has a
fault. -/
theorem parseProgram_outcomes_standard :
    Config.standard.Valid ∧ Config.standard.Decides ∧
    (∀ source, Config.standard.Judges source) ∧
    parseProgram .standard "f\x7b1.5," = .error (.grammatical
      ⟨.invalidExpression invalidExpressionMessage ⟨0, 6⟩ none, anonymous⟩) := by
  have hgives : ¬ Config.standard.GivesUndefined := by
    rintro ⟨text, v, htext, hconvert, hv⟩
    have hdefined := NamedType.isUndefined_of_converter (t := .float) htext hconvert
    rw [hdefined] at hv
    cases hv
  have houtcomes := parseProgram_outcomes Config.valid_standard Config.decides_standard
  exact ⟨Config.valid_standard, Config.decides_standard, houtcomes.2.2 hgives,
    error_of_map (f := List.length) (by decide +kernel)⟩

/-- A converter that gives an undefined decimal for every numeral. -/
def Converter.undefined : Converter := fun _ => .ok (.decimal (.nan false false 0))

/-- With such a converter there is no verdict on a range. -/
theorem not_judges_undefined :
    Config.Valid ⟨.undefined, anonymous, 2⟩ ∧ Config.Decides ⟨.undefined, anonymous, 2⟩ ∧
    parseProgram ⟨.undefined, anonymous, 2⟩ "[0..1]" = .error (.breakdown .undefinedOrder) ∧
    ¬ Config.Judges ⟨.undefined, anonymous, 2⟩ "[0..1]" := by
  have hrun : parseProgram ⟨.undefined, anonymous, 2⟩ "[0..1]" =
      .error (.breakdown .undefinedOrder) :=
    error_of_map (f := List.length) (by decide +kernel)
  refine ⟨Int.le_refl 2, fun text _ e he => ?_, hrun, fun hjudges => ?_⟩
  · cases he
  · exact hjudges.ne_breakdown _ hrun

end ExprFront
