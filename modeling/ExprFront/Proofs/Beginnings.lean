import ExprFront.Proofs.Layout
import ExprFront.Proofs.Writing

/-!
# Beginnings

Tokens begin something if more tokens can be written behind them that make it whole.
`Extends convert P ts` says so for any predicate `P` on tokens.  Beginnings compose like what
they begin (`Extends.bind`): to show that a group can be finished, finish the expression
inside it and write the closing parenthesis.

For each form of the grammar the module shows how it is finished from wherever it was left:
an expression that is still to come is written as a name, a number of a range as zero, and
what is open is closed.  None of this looks at how the grammar is parsed.

* `Begun k ts`: the tokens begin an expression of rank `k` or tighter.
* `IsItems`: items up to and including their closing delimiter.
* `IsStatement` and `IsProgram`: whole statements and programs.
-/

namespace ExprFront

open Grammar (ClosedBy lambdaWord unaryOperators)

/-! ## Tokens to write -/

namespace Token

/-- A particle, to be written behind other tokens. -/
def ofParticle (p : Particle) : Token := ⟨.particle p, .origin, p.symbol⟩

/-- A name, to be written behind other tokens. -/
def ofName (s : String) : Token := ⟨.name s, .origin, s⟩

theorem isolated_ofParticle (convert : Converter) (p : Particle) :
    (ofParticle p).Isolated convert :=
  ⟨rfl, rfl, .particle p, rfl, fun _ ha => Fragment.take?_symbol p ha⟩

theorem isolated_ofName (convert : Converter) {s : String} (hs : IsName s.toList) :
    (ofName s).Isolated convert :=
  ⟨rfl, rfl, .word, rfl, fun _ ha => Fragment.take?_name hs ha⟩

/-- A number, to be written behind other tokens. -/
def ofNumeral (text : List Char) (v : Value) : Token := ⟨.number v, .origin, String.ofList text⟩

theorem isolated_ofNumeral {convert : Converter} {text : List Char} {v : Value}
    (htext : IsNumeral text) (hconvert : convert (String.ofList text) = .ok v) :
    (ofNumeral text v).Isolated convert := by
  refine ⟨rfl, rfl, .numeral, ?_, fun after ha => ?_⟩
  · rw [ofNumeral, Shape.lexeme, hconvert]
    rfl
  · rw [ofNumeral, String.toList_ofList]
    exact Fragment.take?_numeral htext ha

end Token

/-- The converter takes the numeral zero for a natural number. -/
def Converter.ReadsZero (convert : Converter) : Prop :=
  ∃ v n, convert "0" = .ok v ∧ v.whole? = some n

/-- A number that can be written and can be the length of a range. -/
theorem Converter.ReadsZero.exists_token {convert : Converter} (h : convert.ReadsZero) :
    ∃ t v n, Token.Isolated convert t ∧ t.lexeme = .number v ∧ v.whole? = some n := by
  obtain ⟨v, n, hv, hn⟩ := h
  have hzero : IsNumeral ['0'] := isNumeral_singleton (by decide)
  exact ⟨.ofNumeral ['0'] v, v, n, Token.isolated_ofNumeral hzero hv, rfl, hn⟩

/-- Every number type that has a name reads zero. -/
theorem NamedType.readsZero (t : NamedType) : t.converter.ReadsZero := by
  have hzero : (t.converter "0").toOption.bind Value.whole? = some 0 := by
    cases t with
    | integer | float | decimal | fraction => decide +kernel
    | fixedInt t =>
      obtain ⟨signed, width⟩ := t
      cases signed <;> cases width <;> decide +kernel
    | fixedFloat t => cases t <;> decide +kernel
  cases hread : t.converter "0" with
  | error e =>
    rw [hread] at hzero
    cases hzero
  | ok v =>
    rw [hread] at hzero
    exact ⟨v, 0, hread, hzero⟩

/-! ## What can be continued -/

/-- More tokens can be written behind the tokens so that `P` holds of all of them. -/
def Extends (convert : Converter) (P : List Token → Prop) (ts : List Token) : Prop :=
  ∃ us, (∀ u ∈ us, Token.Isolated convert u) ∧ P (ts ++ us)

variable {convert : Converter} {P Q : List Token → Prop} {ts us : List Token}

namespace Extends

theorem of_whole (h : P ts) : Extends convert P ts := by
  refine ⟨[], by simp, ?_⟩
  rwa [List.append_nil]

/-- A token that can be written may be the next one. -/
theorem write {t : Token} (ht : t.Isolated convert) (h : Extends convert P (ts ++ [t])) :
    Extends convert P ts := by
  obtain ⟨us, hus, hP⟩ := h
  refine ⟨t :: us, fun u hu => ?_, by simpa using hP⟩
  rcases List.mem_cons.1 hu with rfl | hu
  · exact ht
  · exact hus u hu

/-- What begins a part of something begins the whole, if the whole can be finished once the
part is. -/
theorem bind (before : List Token) (h : Extends convert P ts)
    (hPQ : ∀ vs, P vs → Extends convert Q (before ++ vs)) : Extends convert Q (before ++ ts) := by
  obtain ⟨us, hus, hP⟩ := h
  obtain ⟨vs, hvs, hQ⟩ := hPQ _ hP
  refine ⟨us ++ vs, fun u hu => ?_, by simpa using hQ⟩
  rcases List.mem_append.1 hu with hu | hu
  · exact hus u hu
  · exact hvs u hu

theorem mono (h : Extends convert P ts) (hPQ : ∀ vs, P vs → Q vs) : Extends convert Q ts := by
  obtain ⟨us, hus, hP⟩ := h
  exact ⟨us, hus, hPQ _ hP⟩

end Extends

/-! ## Expressions -/

/-- The tokens are an expression of rank `k` or tighter. -/
def IsExpr (k : Nat) (ts : List Token) : Prop := ∃ e : Expr, e.WellRead ts ∧ k ≤ e.rank

/-- The tokens begin an expression of rank `k` or tighter. -/
abbrev Begun (convert : Converter) (k : Nat) (ts : List Token) : Prop :=
  Extends convert (IsExpr k) ts

theorem Parsed.isExpr {k : Nat} {e : Expr} {rest : List Token} (h : Parsed k e ts rest) :
    IsExpr k ts := ⟨e, h.wellRead, h.rank⟩

theorem IsExpr.mono {k k' : Nat} (h : IsExpr k ts) (hk : k' ≤ k) : IsExpr k' ts := by
  obtain ⟨e, he, hrank⟩ := h
  exact ⟨e, he, Nat.le_trans hk hrank⟩

theorem isExpr_name {t : Token} {s : String} (ht : t.lexeme = .name s) :
    IsExpr Expr.primaryRank [t] :=
  ⟨.name s t.pos, ⟨.name ht, .name s t.pos⟩, Nat.le_refl _⟩

namespace Begun

variable {k : Nat} {e : Expr} {rest : List Token}

theorem of_parsed (h : Parsed k e ts rest) : Begun convert k ts := .of_whole h.isExpr

theorem weaken {k' : Nat} (h : Begun convert k ts) (hk : k' ≤ k) : Begun convert k' ts :=
  h.mono fun _ he => he.mono hk

/-- Where nothing has been read, a name will do. -/
theorem nil (hk : k ≤ Expr.primaryRank) : Begun convert k [] := by
  have hx : IsName "x".toList := isName_singleton (by decide)
  exact .write (Token.isolated_ofName convert hx) (.of_whole ((isExpr_name rfl).mono hk))

theorem group {opening : Token} (ho : opening.lexeme = .particle .leftParen)
    (h : Begun convert 0 ts) : Begun convert Expr.primaryRank (opening :: ts) := by
  refine h.bind [opening] fun vs ⟨e, he, _⟩ => ?_
  exact .write (Token.isolated_ofParticle convert .rightParen)
    (.of_whole ⟨.group e opening.pos, ⟨.group ho he.1 rfl, .group he.2⟩, Nat.le_refl _⟩)

theorem unary {op : Particle} {t : Token} (ht : t.lexeme = .particle op)
    (hop : op ∈ unaryOperators) (h : Begun convert Expr.unaryRank ts) :
    Begun convert Expr.unaryRank (t :: ts) := by
  refine h.bind [t] fun vs ⟨e, he, hrank⟩ => ?_
  exact .of_whole ⟨.unary op e e.pos, ⟨.unary ht he.1, .unary hop hrank he.2⟩, Nat.le_refl _⟩

/-- A right operand after a left operand that can be one. -/
theorem binary {t : Tier} {op : Particle} {sign : Token} {ls : List Token}
    (hleft : Pending t e ls (sign :: rest)) (hsign : sign.lexeme = .particle op)
    (hop : op ∈ t.operators) (h : Begun convert (t.rank + 1) ts) :
    Begun convert t.rank (ls ++ sign :: ts) := by
  have hend := hleft.stops.endsInLambda_eq_false hop (next_cons.2 hsign)
  rw [List.append_cons]
  refine h.bind (ls ++ [sign]) fun vs ⟨r, hr, hrank⟩ => .of_whole ?_
  rw [← List.append_cons]
  exact ⟨.binary op e r e.pos, ⟨.binary hleft.reads hsign hr.1,
    .binary t hop hleft.rank hrank hend hleft.stratified hr.2⟩,
    Nat.le_of_eq (Expr.rank_binary hop e r e.pos).symm⟩

section Choice

variable {c t : Expr} {question : Token} {cs : List Token}
  (hc : Parsed Tier.equality.rank c cs (question :: rest))
  (hq : question.lexeme = .particle .question)

include hc hq

/-- The last branch of a choice. -/
theorem otherwise {colon : Token} (ht : t.WellRead us) (hk : colon.lexeme = .particle .colon)
    (h : Begun convert 0 ts) : Begun convert 0 (cs ++ question :: (us ++ colon :: ts)) := by
  have hend := hc.stops.endsInLambda_eq_false_of_question (next_cons.2 hq)
  have hsplit : ∀ vs, cs ++ question :: (us ++ colon :: vs) =
      (cs ++ question :: (us ++ [colon])) ++ vs := by simp
  rw [hsplit]
  refine h.bind _ fun vs ⟨e, he, _⟩ => .of_whole ?_
  rw [← hsplit]
  exact ⟨.ternary c t e c.pos, ⟨.ternary hc.reads hq ht.1 hk he.1,
    .ternary hc.rank hend hc.stratified ht.2 he.2⟩, Nat.zero_le _⟩

/-- A choice that lacks its colon. -/
theorem missingColon (ht : t.WellRead us) : Begun convert 0 (cs ++ question :: us) := by
  refine .write (Token.isolated_ofParticle convert .colon) ?_
  have hcolon : (Token.ofParticle .colon).lexeme = .particle .colon := rfl
  have hnil : Begun convert 0 [] := .nil (Nat.zero_le _)
  have hbranch := hnil.otherwise hc hq ht hcolon
  simpa using hbranch

/-- The first branch of a choice. -/
theorem consequent (h : Begun convert 0 ts) : Begun convert 0 (cs ++ question :: ts) := by
  rw [List.append_cons]
  refine h.bind (cs ++ [question]) fun vs ⟨t, ht, _⟩ => ?_
  rw [← List.append_cons]
  exact missingColon hc hq ht

end Choice

end Begun

/-! ## Items between delimiters -/

section Items

variable {α : Type} {R : α → List Token → Prop} {x : α} {xs : List α} {comma : Token}

theorem Following.append_item (h : Following R xs ts) (hcomma : comma.lexeme = .particle .comma)
    (hx : R x us) : Following R (xs ++ [x]) (ts ++ comma :: us) := by
  induction h with
  | nil =>
    have hsingle : Following R [x] (comma :: (us ++ [])) := .cons hcomma hx .nil
    rwa [List.append_nil] at hsingle
  | @cons y ys comma' vs ws hcomma' hy _ ih =>
    have hlonger : Following R (y :: (ys ++ [x])) (comma' :: (vs ++ (ws ++ comma :: us))) :=
      .cons hcomma' hy ih
    simpa using hlonger

/-- One more item after a comma. -/
theorem Separated.append_item (h : Separated R xs ts) (hxs : xs ≠ [])
    (hcomma : comma.lexeme = .particle .comma) (hx : R x us) :
    Separated R (xs ++ [x]) (ts ++ comma :: us) := by
  cases h with
  | nil => exact absurd rfl hxs
  | @cons y ys vs ws hy tail =>
    have hlonger := Separated.cons hy (tail.append_item hcomma hx)
    simpa using hlonger

theorem separated_singleton (hx : R x ts) : Separated R [x] ts := by
  have hsingle : Separated R [x] (ts ++ []) := .cons hx .nil
  rwa [List.append_nil] at hsingle

/-- The tokens are items and their closing delimiter. -/
def IsItems (R : α → List Token → Prop) (closing : Particle) (ts : List Token) : Prop :=
  ∃ xs, ClosedBy closing (Separated R) xs ts

/-- The tokens are an item. -/
def IsItem (R : α → List Token → Prop) (ts : List Token) : Prop := ∃ x, R x ts

variable {closing : Particle}

/-- After an item the list can be closed. -/
theorem Separated.extends_close (h : Separated R xs ts) :
    Extends convert (IsItems R closing) ts :=
  .write (Token.isolated_ofParticle convert closing)
    (.of_whole ⟨xs, ts, Token.ofParticle closing, rfl, rfl, h⟩)

/-- The first item of a list. -/
theorem extends_first (h : Extends convert (IsItem R) ts) :
    Extends convert (IsItems R closing) ts := by
  refine h.bind [] fun vs ⟨x, hx⟩ => ?_
  exact (separated_singleton hx).extends_close

/-- The next item of a list. -/
theorem Separated.extends_next (h : Separated R xs ts) (hxs : xs ≠ [])
    (hcomma : comma.lexeme = .particle .comma) (hus : Extends convert (IsItem R) us) :
    Extends convert (IsItems R closing) (ts ++ comma :: us) := by
  rw [List.append_cons]
  refine hus.bind (ts ++ [comma]) fun vs ⟨x, hx⟩ => ?_
  rw [← List.append_cons]
  exact (h.append_item hxs hcomma hx).extends_close

theorem extends_parameter_nil : Extends convert (IsItem ReadsParameter) [] := by
  have hx : IsName "x".toList := isName_singleton (by decide)
  exact .write (Token.isolated_ofName convert hx) (.of_whole ⟨"x", _, rfl, rfl⟩)

theorem Begun.item (h : Begun convert 0 ts) : Extends convert (IsItem Expr.WellRead) ts :=
  h.mono fun _ ⟨e, he, _⟩ => ⟨e, he⟩

end Items

/-! ## Forms with items -/

namespace Begun

variable {word opening : Token}

theorem call {s : String} (hw : word.lexeme = .name s)
    (ho : opening.lexeme = .particle .leftBrace)
    (h : Extends convert (IsItems Expr.WellRead .rightBrace) ts) :
    Begun convert Expr.primaryRank (word :: opening :: ts) := by
  refine h.bind [word, opening] fun vs hvs => .of_whole ?_
  obtain ⟨args, us, closing, rfl, hc, hargs⟩ := hvs
  exact ⟨.call s args word.pos, ⟨.call hw ho hargs.reads (fun _ _ h => h) hc,
    .call hargs.stratified⟩, Nat.le_refl _⟩

theorem list (ho : opening.lexeme = .particle .leftBracket)
    (h : Extends convert (IsItems Expr.WellRead .rightBracket) ts) :
    Begun convert Expr.primaryRank (opening :: ts) := by
  refine h.bind [opening] fun vs hvs => .of_whole ?_
  obtain ⟨values, us, closing, rfl, hc, hvalues⟩ := hvs
  exact ⟨.list values opening.pos, ⟨.list ho hvalues.reads (fun _ _ h => h) hc,
    .list hvalues.stratified⟩, Nat.le_refl _⟩

section Function

variable (hw : word.lexeme = .name lambdaWord) (ho : opening.lexeme = .particle .leftParen)

include hw ho

/-- The body of a function. -/
theorem body {ps : List String} {closing : Token} (hps : Separated ReadsParameter ps us)
    (hc : closing.lexeme = .particle .rightParen) (h : Begun convert 0 ts) :
    Begun convert Expr.primaryRank (word :: opening :: (us ++ closing :: ts)) := by
  have hsplit : ∀ vs, word :: opening :: (us ++ closing :: vs) =
      (word :: opening :: (us ++ [closing])) ++ vs := by simp
  rw [hsplit]
  refine h.bind _ fun vs ⟨e, he, _⟩ => .of_whole ?_
  rw [← hsplit]
  exact ⟨.lambda ps e word.pos, ⟨.lambda hw ho hps hc he.1, .lambda he.2⟩, Nat.le_refl _⟩

/-- The parameters of a function. -/
theorem parameters (h : Extends convert (IsItems ReadsParameter .rightParen) ts) :
    Begun convert Expr.primaryRank (word :: opening :: ts) := by
  refine h.bind [word, opening] fun vs hvs => ?_
  obtain ⟨ps, us, closing, rfl, hc, hps⟩ := hvs
  have hnil : Begun convert 0 [] := .nil (Nat.zero_le _)
  exact hnil.body hw ho hps hc

end Function

end Begun

/-! ## Ranges -/

section Range

variable {start v w : Value} {n : Nat} {opening first dots length semicolon step : Token}
  (ho : opening.lexeme = .particle .leftBracket) (hf : first.lexeme = .number start)
  (hd : dots.lexeme = .particle .range)

include ho hf hd

namespace Begun

/-- A range that lacks its closing bracket, or a step. -/
theorem rangeEnd (hl : length.lexeme = .number v) (hv : v.whole? = some n) :
    Begun convert Expr.primaryRank [opening, first, dots, length] :=
  .write (Token.isolated_ofParticle convert .rightBracket)
    (.of_whole ⟨_, ⟨.range ho hf hd hl hv rfl, .range ..⟩, Nat.le_refl _⟩)

/-- A range that lacks its closing bracket after the step. -/
theorem rangeStepEnd (hl : length.lexeme = .number v) (hv : v.whole? = some n)
    (hs : semicolon.lexeme = .particle .semicolon) (hw : step.lexeme = .number w) :
    Begun convert Expr.primaryRank [opening, first, dots, length, semicolon, step] :=
  .write (Token.isolated_ofParticle convert .rightBracket)
    (.of_whole ⟨_, ⟨.rangeStep ho hf hd hl hv hs hw rfl, .range ..⟩, Nat.le_refl _⟩)

/-- A range that lacks its step. -/
theorem rangeStep (hzero : convert.ReadsZero) (hl : length.lexeme = .number v)
    (hv : v.whole? = some n) (hs : semicolon.lexeme = .particle .semicolon) :
    Begun convert Expr.primaryRank [opening, first, dots, length, semicolon] := by
  obtain ⟨t, w, m, ht, hw, -⟩ := hzero.exists_token
  exact .write ht (rangeStepEnd ho hf hd hl hv hs hw)

/-- A range that lacks its length. -/
theorem rangeLength (hzero : convert.ReadsZero) :
    Begun convert Expr.primaryRank [opening, first, dots] := by
  obtain ⟨t, v, n, ht, hl, hv⟩ := hzero.exists_token
  exact .write ht (rangeEnd ho hf hd hl hv)

end Begun

end Range

/-! ## Statements and programs -/

/-- The tokens are a statement. -/
def IsStatement (ts : List Token) : Prop := ∃ s : Stmt, s.Reads ts ∧ s.Stratified

/-- The tokens are a program. -/
def IsProgram (ts : List Token) : Prop := ∃ ss, Program ss ts

theorem Begun.statement (h : Begun convert 0 ts) : Extends convert IsStatement ts :=
  h.mono fun _ ⟨e, he, _⟩ => ⟨.expression e e.pos, .expression he.1, he.2⟩

theorem Begun.assign {s : String} {target sign : Token} (ht : target.lexeme = .name s)
    (hs : sign.lexeme = .particle .assign) (h : Begun convert 0 ts) :
    Extends convert IsStatement (target :: sign :: ts) := by
  refine h.bind [target, sign] fun vs ⟨e, he, _⟩ => .of_whole ?_
  exact ⟨.assign s e target.pos, .assign ht hs he.1, he.2⟩

theorem extends_program_nil : Extends convert IsProgram [] := .of_whole ⟨[], .nil⟩

/-- A statement alone is a program. -/
theorem extends_program_of_statement (h : Extends convert IsStatement ts) :
    Extends convert IsProgram ts := by
  refine h.mono fun vs ⟨s, hreads, hstrat⟩ => ⟨[s], ?_⟩
  have hprogram : Program [s] (vs ++ []) := .cons ⟨hreads, hstrat, stops_nil 0 s.body vs⟩ .nil
  rwa [List.append_nil] at hprogram

/-- A statement before the beginning of a program.  If nothing has been read of the program,
nothing is written after the statement: it need not stop before what would be written. -/
theorem ParsedStmt.extends_program {s : Stmt} {rest : List Token}
    (h : ParsedStmt s ts (us ++ rest)) (hus : Extends convert IsProgram us) :
    Extends convert IsProgram (ts ++ us) := by
  by_cases hnil : us = []
  · rw [hnil, List.append_nil]
    exact extends_program_of_statement (.of_whole ⟨s, h.reads, h.stratified⟩)
  · obtain ⟨vs, hvs, ss, hss⟩ := hus
    have hstops : Stops 0 s.body ts (us ++ vs) := by
      apply h.stops.of_head
      rw [List.head?_append_of_ne_nil _ hnil, List.head?_append_of_ne_nil _ hnil]
    refine ⟨vs, hvs, s :: ss, ?_⟩
    rw [List.append_assoc]
    exact .cons ⟨h.reads, h.stratified, hstops⟩ hss

end ExprFront
