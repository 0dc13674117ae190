import ExprFront.Proofs.Contract
import ExprFront.Proofs.Spelling

/-!
# The parse relation

`Parsed k e ts rest` is what the rules of rank `k` decide: the tokens `ts`, followed by
`rest`, are an expression `e` of rank `k` or tighter, and they are taken as far as they can
be.  That a parse goes as far as it can is the condition `Stops`.  It forbids that the
next token is an operator that would go on with `e`, and that it turns a last name into a
call or into a function.

The grammar has no separators between statements, so `Program` needs the same condition
between a statement and what follows it.

The module shows how parsed parts make up a parsed whole, one lemma for each form.  Both
directions of the correctness of the grammar rest on `Parsed`: a rule answers only what is
parsed, and it answers everything that is parsed.
-/

namespace ExprFront

open Grammar (lambdaWord unaryOperators)

/-- The last token is the name `s`. -/
def LastName (s : String) (ts : List Token) : Prop :=
  ts.getLast?.map Token.lexeme = some (.name s)

theorem lastName_append {s : String} {ts us : List Token} (h : us ≠ []) :
    LastName s (ts ++ us) ↔ LastName s us := by
  rw [LastName, LastName, List.getLast?_append_of_ne_nil _ h]

theorem lastName_singleton {s : String} {t : Token} : LastName s [t] ↔ t.lexeme = .name s := by
  simp [LastName]

/-- The tokens `rest` do not go on with the expression `e` of rank `k` that ends before
them. -/
structure Stops (k : Nat) (e : Expr) (ts rest : List Token) : Prop where
  /-- No operator of the tiers from `k` on, and after a function no operator at all. -/
  operator : ∀ t : Tier, k ≤ t.rank ∨ e.endsInLambda = true → ∀ op ∈ t.operators, ¬ Next op rest
  question : k = 0 ∨ e.endsInLambda = true → ¬ Next .question rest
  call : ∀ s, LastName s ts → ¬ Next .leftBrace rest
  lambda : LastName lambdaWord ts → ¬ Next .leftParen rest

/-- The tokens `ts`, followed by `rest`, are an expression `e` of rank at least `k`. -/
structure Parsed (k : Nat) (e : Expr) (ts rest : List Token) : Prop where
  reads : e.Reads ts
  stratified : e.Stratified
  rank : k ≤ e.rank
  stops : Stops k e ts rest

/-- The tokens `ts`, followed by `rest`, are an expression `e` that operators of the tier can
go on with, but nothing tighter. -/
structure Pending (t : Tier) (e : Expr) (ts rest : List Token) : Prop where
  reads : e.Reads ts
  stratified : e.Stratified
  rank : t.rank ≤ e.rank
  stops : Stops (t.rank + 1) e ts rest

/-- The tokens `ts`, followed by `rest`, are a statement. -/
structure ParsedStmt (s : Stmt) (ts rest : List Token) : Prop where
  reads : s.Reads ts
  stratified : s.Stratified
  stops : Stops 0 s.body ts rest

/-- The tokens are a sequence of statements, each of which stops before the next one. -/
inductive Program : List Stmt → List Token → Prop where
  | nil : Program [] []
  | cons {s : Stmt} {ss : List Stmt} {ts rest : List Token} (head : ParsedStmt s ts rest)
      (tail : Program ss rest) : Program (s :: ss) (ts ++ rest)

/-! ## Where expressions stop -/

namespace Stops

variable {k : Nat} {e : Expr} {ts rest : List Token}

/-- Only the first of the tokens that follow matters. -/
theorem of_head {rest' : List Token} (h : Stops k e ts rest) (hrest : rest'.head? = rest.head?) :
    Stops k e ts rest' where
  operator t ht op hop hnext := h.operator t ht op hop (by rwa [Next, ← hrest])
  question hk hnext := h.question hk (by rwa [Next, ← hrest])
  call s hs hnext := h.call s hs (by rwa [Next, ← hrest])
  lambda hs hnext := h.lambda hs (by rwa [Next, ← hrest])

/-- What stops before anything also stops when it is part of something tighter. -/
theorem of_zero (h : Stops 0 e ts rest) (hts : ts ≠ []) (e' : Expr) (us : List Token) :
    Stops k e' (us ++ ts) rest where
  operator t _ := h.operator t (.inl (Nat.zero_le _))
  question _ := h.question (.inl rfl)
  call s hs := h.call s ((lastName_append hts).1 hs)
  lambda hs := h.lambda ((lastName_append hts).1 hs)

/-- What an expression ends with stops where the expression stops. -/
theorem append_left (h : Stops k e ts rest) (hts : ts ≠ []) (e' : Expr)
    (he : e'.endsInLambda = e.endsInLambda) (us : List Token) : Stops k e' (us ++ ts) rest where
  operator t ht := h.operator t (he ▸ ht)
  question hk := h.question (he ▸ hk)
  call s hs := h.call s ((lastName_append hts).1 hs)
  lambda hs := h.lambda ((lastName_append hts).1 hs)

/-- What goes on with nothing at some rank goes on with nothing at a tighter one. -/
theorem mono {k' : Nat} (h : Stops k e ts rest) (hk : k ≤ k') : Stops k' e ts rest where
  operator t ht := h.operator t (ht.imp_left (Nat.le_trans hk))
  question hq := h.question (hq.imp_left (by omega))
  call := h.call
  lambda := h.lambda

/-- An operand at the end stops where the whole stops. -/
theorem of_append {e' : Expr} {us : List Token} (h : Stops k e' (us ++ ts) rest) (hts : ts ≠ [])
    (he : e'.endsInLambda = e.endsInLambda) : Stops k e ts rest where
  operator t ht := h.operator t (he ▸ ht)
  question hk := h.question (he ▸ hk)
  call s hs := h.call s ((lastName_append hts).2 hs)
  lambda hs := h.lambda ((lastName_append hts).2 hs)

/-- An expression at the end of a choice or of a function stops where the whole stops. -/
theorem inner {k' : Nat} {e' : Expr} {us : List Token} (h : Stops k' e' (us ++ ts) rest)
    (hts : ts ≠ []) (hk : k' = 0 ∨ e'.endsInLambda = true) : Stops k e ts rest where
  operator t _ := h.operator t (hk.imp_left (by omega))
  question _ := h.question hk
  call s hs := h.call s ((lastName_append hts).2 hs)
  lambda hs := h.lambda ((lastName_append hts).2 hs)

/-- Nothing goes on with a tight expression that ends in no name and no function. -/
theorem of_last (hk : Expr.unaryRank ≤ k) (he : e.endsInLambda = false)
    (hlast : ∀ s, ¬ LastName s ts) : Stops k e ts rest where
  operator t ht := by
    have := t.rank_le
    rcases ht with ht | ht
    · unfold Expr.unaryRank at hk
      omega
    · rw [he] at ht
      cases ht
  question hq := by
    rcases hq with hq | hq
    · unfold Expr.unaryRank at hk
      omega
    · rw [he] at hq
      cases hq
  call s hs := absurd hs (hlast s)
  lambda hs := absurd hs (hlast _)

/-- A tier is left when none of its operators comes next. -/
theorem of_tier {t : Tier} (h : Stops (t.rank + 1) e ts rest)
    (hops : ∀ op ∈ t.operators, ¬ Next op rest) : Stops t.rank e ts rest where
  operator u hu := by
    by_cases hut : u = t
    · rw [hut]
      exact hops
    · have hne : u.rank ≠ t.rank := fun he => hut (Tier.rank_injective he)
      exact h.operator u (hu.imp_left (by omega))
  question hq := by
    have := t.rank_pos
    exact h.question (.inr (hq.resolve_left (by omega)))
  call := h.call
  lambda := h.lambda

/-- All tiers are left, and no choice begins. -/
theorem of_no_question (h : Stops Tier.equality.rank e ts rest)
    (hq : ¬ Next .question rest) : Stops 0 e ts rest where
  operator t _ := h.operator t (.inl t.rank_pos)
  question _ := hq
  call := h.call
  lambda := h.lambda

/-- An operator comes next only if the expression does not end in a function. -/
theorem endsInLambda_eq_false (h : Stops k e ts rest) {t : Tier} {op : Particle}
    (hop : op ∈ t.operators) (hnext : Next op rest) : e.endsInLambda = false := by
  cases he : e.endsInLambda with
  | false => rfl
  | true => exact absurd hnext (h.operator t (.inr he) op hop)

theorem endsInLambda_eq_false_of_question (h : Stops k e ts rest)
    (hnext : Next .question rest) : e.endsInLambda = false := by
  cases he : e.endsInLambda with
  | false => rfl
  | true => exact absurd hnext (h.question (.inr he))

/-- Particles that go on with no expression. -/
def closers : List Particle := [.comma, .colon, .rightParen, .rightBrace, .rightBracket]

theorem of_closer {p : Particle} (hp : p ∈ closers) (h : Next p rest) : Stops k e ts rest where
  operator t _ op hop hnext := by
    have hnone : ∀ q ∈ closers, Tier.ofOperator? q = none := by decide
    exact Tier.notMem_operators (hnone p hp) t (hnext.unique h ▸ hop)
  question _ hnext := absurd hp (h.unique hnext ▸ by decide)
  call _ _ hnext := absurd hp (h.unique hnext ▸ by decide)
  lambda _ hnext := absurd hp (h.unique hnext ▸ by decide)

/-- An operator of a tier goes on with nothing tighter. -/
theorem of_operator {t : Tier} {op : Particle} (hop : op ∈ t.operators) (h : Next op rest)
    (he : e.endsInLambda = false) : Stops (t.rank + 1) e ts rest where
  operator u hu op' hop' hnext := by
    cases hnext.unique h
    have hsame : u = t := Option.some.inj
      ((Tier.ofOperator?_eq_some_iff.2 hop').symm.trans (Tier.ofOperator?_eq_some_iff.2 hop))
    rw [hsame, he] at hu
    rcases hu with hu | hu
    · omega
    · cases hu
  question hq := by
    rw [he] at hq
    rcases hq with hq | hq
    · omega
    · cases hq
  call _ _ hnext := by
    cases hnext.unique h
    exact Tier.notMem_operators rfl _ hop
  lambda _ hnext := by
    cases hnext.unique h
    exact Tier.notMem_operators rfl _ hop

/-- A question mark goes on with a choice only. -/
theorem of_question (h : Next .question rest) (he : e.endsInLambda = false) :
    Stops Tier.equality.rank e ts rest where
  operator u _ op hop hnext := by
    cases hnext.unique h
    exact Tier.notMem_operators rfl _ hop
  question hq := by
    rw [he] at hq
    rcases hq with hq | hq
    · cases hq
    · cases hq
  call _ _ hnext := by cases hnext.unique h
  lambda _ hnext := by cases hnext.unique h

end Stops

/-! ## Forms of expressions -/

namespace Parsed

variable {e : Expr} {ts rest : List Token} {opening closing : Token}

theorem number {v : Value} {t : Token} (h : t.lexeme = .number v) :
    Parsed Expr.primaryRank (.number v t.pos) [t] rest where
  reads := .number h
  stratified := .number v t.pos
  rank := Nat.le_refl _
  stops := by
    refine .of_last (by decide) rfl fun s hs => ?_
    rw [lastName_singleton, h] at hs
    cases hs

theorem name {s : String} {t : Token} (h : t.lexeme = .name s) (hcall : ¬ Next .leftBrace rest)
    (hlambda : s = lambdaWord → ¬ Next .leftParen rest) :
    Parsed Expr.primaryRank (.name s t.pos) [t] rest where
  reads := .name h
  stratified := .name s t.pos
  rank := Nat.le_refl _
  stops :=
    { operator := by
        intro u hu
        have := u.rank_le
        unfold Expr.primaryRank at hu
        exact absurd hu (by simp [Expr.endsInLambda]; omega)
      question := by simp [Expr.primaryRank, Expr.endsInLambda]
      call := fun _ _ => hcall
      lambda := by
        intro hs
        rw [lastName_singleton, h] at hs
        cases hs
        exact hlambda rfl }

/-- What ends in a closing delimiter stops there. -/
theorem of_closing (us : List Token) {p : Particle} (hreads : e.Reads (us ++ [closing]))
    (hstrat : e.Stratified) (hrank : e.rank = Expr.primaryRank) (hend : e.endsInLambda = false)
    (hc : closing.lexeme = .particle p) : Parsed Expr.primaryRank e (us ++ [closing]) rest where
  reads := hreads
  stratified := hstrat
  rank := Nat.le_of_eq hrank.symm
  stops := by
    refine .of_last (by decide) hend fun s hs => ?_
    rw [lastName_append (by simp), lastName_singleton, hc] at hs
    cases hs

theorem group {inner : Expr} (ho : opening.lexeme = .particle .leftParen)
    (hinner : inner.WellRead ts) (hc : closing.lexeme = .particle .rightParen) :
    Parsed Expr.primaryRank (.group inner opening.pos) (opening :: (ts ++ [closing])) rest :=
  of_closing (opening :: ts) (.group ho hinner.1 hc) (.group hinner.2) rfl rfl hc

theorem call {s : String} {args : List Expr} {word : Token} (hw : word.lexeme = .name s)
    (ho : opening.lexeme = .particle .leftBrace) (hargs : Separated Expr.WellRead args ts)
    (hc : closing.lexeme = .particle .rightBrace) :
    Parsed Expr.primaryRank (.call s args word.pos) (word :: opening :: (ts ++ [closing])) rest :=
  of_closing (word :: opening :: ts) (.call hw ho hargs.reads (fun _ _ h => h) hc)
    (.call hargs.stratified) rfl rfl hc

theorem list {values : List Expr} (ho : opening.lexeme = .particle .leftBracket)
    (hvalues : Separated Expr.WellRead values ts)
    (hc : closing.lexeme = .particle .rightBracket) :
    Parsed Expr.primaryRank (.list values opening.pos) (opening :: (ts ++ [closing])) rest :=
  of_closing (opening :: ts) (.list ho hvalues.reads (fun _ _ h => h) hc)
    (.list hvalues.stratified) rfl rfl hc

theorem lambda {ps : List String} {body : Expr} {word : Token} {bs : List Token}
    (hw : word.lexeme = .name lambdaWord) (ho : opening.lexeme = .particle .leftParen)
    (hps : Separated ReadsParameter ps ts) (hc : closing.lexeme = .particle .rightParen)
    (hbody : Parsed 0 body bs rest) :
    Parsed Expr.primaryRank (.lambda ps body word.pos)
      (word :: opening :: (ts ++ closing :: bs)) rest where
  reads := .lambda hw ho hps hc hbody.reads
  stratified := .lambda hbody.stratified
  rank := Nat.le_refl _
  stops := by
    have hstops := hbody.stops.of_zero (k := Expr.primaryRank) hbody.reads.ne_nil
      (.lambda ps body word.pos) (word :: opening :: (ts ++ [closing]))
    simpa using hstops

/-- Between the tiers of operators and the tightest forms nothing changes without an
operator. -/
theorem of_primary (h : Parsed Expr.primaryRank e ts rest) :
    Parsed Expr.unaryRank e ts rest where
  reads := h.reads
  stratified := h.stratified
  rank := Nat.le_trans (by decide) h.rank
  stops :=
    { operator := fun t ht => h.stops.operator t (.inr (ht.resolve_left (by
        have := t.rank_le
        unfold Expr.unaryRank
        omega)))
      question := fun hq => h.stops.question (.inr (hq.resolve_left (by decide)))
      call := h.stops.call
      lambda := h.stops.lambda }

theorem unary {op : Particle} {t : Token} (ht : t.lexeme = .particle op)
    (hop : op ∈ unaryOperators) (he : Parsed Expr.unaryRank e ts rest) :
    Parsed Expr.unaryRank (.unary op e e.pos) (t :: ts) rest where
  reads := .unary ht he.reads
  stratified := .unary hop he.rank he.stratified
  rank := Nat.le_refl _
  stops := he.stops.append_left he.reads.ne_nil (.unary op e e.pos) rfl [t]

/-- A choice stops where its last branch stops. -/
theorem ternary {c t : Expr} {question colon : Token} {cs us : List Token}
    (hc : c.WellRead cs) (hrank : Tier.equality.rank ≤ c.rank) (hend : c.endsInLambda = false)
    (hq : question.lexeme = .particle .question) (ht : t.WellRead us)
    (hk : colon.lexeme = .particle .colon) (he : Parsed 0 e ts rest) :
    Parsed 0 (.ternary c t e c.pos) (cs ++ question :: (us ++ colon :: ts)) rest where
  reads := .ternary hc.1 hq ht.1 hk he.reads
  stratified := .ternary hrank hend hc.2 ht.2 he.stratified
  rank := Nat.zero_le _
  stops := by
    have hstops := he.stops.of_zero (k := 0) he.reads.ne_nil (.ternary c t e c.pos)
      (cs ++ question :: (us ++ [colon]))
    simpa using hstops

/-- The condition of a choice alone. -/
theorem of_no_question (h : Parsed Tier.equality.rank e ts rest)
    (hq : ¬ Next .question rest) : Parsed 0 e ts rest :=
  ⟨h.reads, h.stratified, Nat.zero_le _, h.stops.of_no_question hq⟩

theorem wellRead {k : Nat} (h : Parsed k e ts rest) : e.WellRead ts := ⟨h.reads, h.stratified⟩

end Parsed

/-! ## Operators of a tier -/

namespace Pending

variable {t : Tier} {e : Expr} {ts rest : List Token}

theorem of_parsed (h : Parsed (t.rank + 1) e ts rest) : Pending t e ts rest :=
  ⟨h.reads, h.stratified, Nat.le_of_succ_le h.rank, h.stops⟩

/-- An operator of the tier and a right operand. -/
theorem binary {op : Particle} {sign : Token} {r : Expr} {rs : List Token}
    (h : Pending t e ts (sign :: (rs ++ rest))) (hsign : sign.lexeme = .particle op)
    (hop : op ∈ t.operators) (hr : Parsed (t.rank + 1) r rs rest) :
    Pending t (.binary op e r e.pos) (ts ++ sign :: rs) rest where
  reads := .binary h.reads hsign hr.reads
  stratified := by
    have hend := h.stops.endsInLambda_eq_false hop (next_cons.2 hsign)
    exact .binary t hop h.rank hr.rank hend h.stratified hr.stratified
  rank := Nat.le_of_eq (Expr.rank_binary hop e r e.pos).symm
  stops := by
    have hstops := hr.stops.append_left hr.reads.ne_nil (.binary op e r e.pos) rfl (ts ++ [sign])
    rwa [List.append_assoc] at hstops

/-- A tier is left when none of its operators comes next. -/
theorem parsed (h : Pending t e ts rest) (hops : ∀ op ∈ t.operators, ¬ Next op rest) :
    Parsed t.rank e ts rest :=
  ⟨h.reads, h.stratified, h.rank, h.stops.of_tier hops⟩

end Pending

/-! ## Statements -/

namespace ParsedStmt

variable {e : Expr} {ts rest : List Token}

theorem assign {s : String} {target sign : Token} (ht : target.lexeme = .name s)
    (hs : sign.lexeme = .particle .assign) (he : Parsed 0 e ts rest) :
    ParsedStmt (.assign s e target.pos) (target :: sign :: ts) rest where
  reads := .assign ht hs he.reads
  stratified := he.stratified
  stops := he.stops.append_left he.reads.ne_nil e rfl [target, sign]

theorem expression (he : Parsed 0 e ts rest) : ParsedStmt (.expression e e.pos) ts rest where
  reads := .expression he.reads
  stratified := he.stratified
  stops := he.stops

end ParsedStmt

namespace Program

variable {ss : List Stmt} {ts : List Token}

theorem stratified (h : Program ss ts) : ∀ s ∈ ss, s.Stratified := by
  induction h with
  | nil =>
    intro s hs
    cases hs
  | cons head _ ih =>
    intro s hs
    rcases List.mem_cons.1 hs with rfl | hs
    · exact head.stratified
    · exact ih s hs

/-- The tokens of a program have the lexemes that its statements yield. -/
theorem yield (h : Program ss ts) (hts : Definite ts) : Spelled (ss.flatMap Stmt.yield) ts := by
  induction h with
  | nil => exact .nil
  | cons head _ ih =>
    obtain ⟨hts, hrest⟩ := hts.of_append
    exact (head.reads.yield hts).append (ih hrest)

/-- Every statement has a token of its own. -/
theorem length_le (h : Program ss ts) : ss.length ≤ ts.length := by
  induction h with
  | nil => exact Nat.le_refl _
  | @cons s ss ts rest head _ ih =>
    have hpos : 0 < ts.length := List.length_pos_iff.2 head.reads.ne_nil
    rw [List.length_cons, List.length_append]
    omega

end Program

end ExprFront
