import ExprFront.Proofs.Parsed
import ExprFront.Program

/-!
# The grammar builds what it reads

Each rule of the grammar answers only what is parsed, and otherwise fails with a failure
that is possible: its contract is `Meets p b (Parsed k)`, where `k` is the rank of the rule.
The contracts are proved from the tightest rule to the loosest, each from that of the next
tighter one.

The rules take fuel.  A rule of fuel `n` is sound on buffers with fewer than `n` tokens
ahead (`Sound`), and a rule inside a rule gets fewer tokens than the rule around it.  So one
induction on the fuel closes the circle (`sound_expression`), and no rule runs out of fuel:
the contract leaves no room for that failure.

Main results: `meets_program`, and from it that a program is spelled by its statements and
that its trees are stratified.
-/

namespace ExprFront

namespace Grammar

open Buffer

/-- The rule is sound at rank `k` on buffers with fewer than `n` tokens ahead. -/
def Sound (p : Parser Expr) (k n : Nat) : Prop :=
  ∀ b : Buffer, b.ahead.tokens.length < n → Meets p b (Parsed k)

/-- The tokens are items, related to the answer by `Items`, and a closing delimiter. -/
def ClosedBy {α : Type} (closing : Particle) (Items : α → List Token → Prop) (xs : α)
    (ts : List Token) : Prop :=
  ∃ us c, ts = us ++ [c] ∧ c.lexeme = .particle closing ∧ Items xs us

/-- The delimiters that close lists of items. -/
def listClosers : List Particle := [.rightBrace, .rightParen, .rightBracket]

theorem wanted_of_listCloser {p : Particle} (h : p ∈ listClosers) :
    "a comma or " ++ quotedSymbol p ∈ wantedAtEnd := by
  simp only [listClosers, List.mem_cons, List.not_mem_nil, or_false] at h
  rcases h with rfl | rfl | rfl <;> decide

/-! ## Items between delimiters -/

section Items

variable {α : Type} {item : Parser α} {R : α → List Token → Prop} {n : Nat}

theorem meets_dueItem {b : Buffer}
    (hitem : ∀ b', b.Consumes [] b' → Meets item b' fun x ts _ => R x ts) :
    Meets (dueItem item) b fun x ts _ => R x ts := by
  refine (meets_accept? b .comma).bind fun r ts b' hb' hr => ?_
  rcases hr with ⟨comma, rfl, rfl, -⟩ | ⟨rfl, rfl, -⟩
  · exact meets_fail (.unexpectedComma comma false) trivial
  · exact hitem b' hb'

/-- The items after the first one. -/
theorem meets_moreItems {closing : Particle} (hclosing : closing ∈ listClosers)
    (hitem : ∀ b : Buffer, b.ahead.tokens.length < n → Meets item b fun x ts _ => R x ts) :
    ∀ (fuel : Nat) (b : Buffer), b.ahead.tokens.length < n → b.ahead.tokens.length < fuel →
      Meets (moreItems closing item fuel) b fun xs ts _ =>
        ClosedBy closing (Following R) xs ts := by
  intro fuel
  induction fuel with
  | zero =>
    intro b _ hfuel
    exact absurd hfuel (Nat.not_lt_zero _)
  | succ fuel ih =>
    intro b hn hfuel
    rw [moreItems]
    refine (meets_accept? b closing).bind fun r ts b1 hb1 hr => ?_
    rcases hr with ⟨c, rfl, rfl, hc⟩ | ⟨rfl, rfl, -⟩
    · exact meets_pure ⟨[], c, rfl, hc, .nil⟩
    have hlen1 := hb1.length_eq
    refine (meets_accept? b1 .comma).bind fun r ts b2 hb2 hr => ?_
    have hlen2 := hb2.length_eq
    rcases hr with ⟨comma, rfl, rfl, hcomma⟩ | ⟨rfl, rfl, -⟩
    · refine (meets_check b2 closing).bind_look fun r b3 hb3 hr => ?_
      have hlen3 := hb3.length_eq
      simp only [List.length_nil, List.length_singleton] at hlen1 hlen2 hlen3
      split
      · exact meets_fail (.unexpectedComma comma true) trivial
      · refine (meets_dueItem fun b4 hb4 => hitem b4 ?_).bind
          fun x ts b5 hb5 hx => ?_
        · have hlen4 := hb4.length_eq
          simp only [List.length_nil] at hlen4
          omega
        · have hlen5 := hb5.length_eq
          refine (ih b5 (by omega) (by omega)).bind fun xs us b6 hb6 hxs => ?_
          obtain ⟨us, c, rfl, hc, hxs⟩ := hxs
          refine meets_pure ⟨comma :: (ts ++ us), c, ?_, hc, .cons hcomma hx hxs⟩
          simp
    · refine (meets_advance b2 (.inl (wanted_of_listCloser hclosing))).bind
        fun found ts b3 hb3 _ => ?_
      exact meets_fail (.unexpectedToken "a comma" found)
        (show "a comma" ∈ wantedTokens by decide)

theorem meets_delimited {closing : Particle} (hclosing : closing ∈ listClosers)
    (hitem : ∀ b : Buffer, b.ahead.tokens.length < n → Meets item b fun x ts _ => R x ts)
    {fuel : Nat} {b : Buffer} (hn : b.ahead.tokens.length < n)
    (hfuel : b.ahead.tokens.length < fuel) :
    Meets (delimited fuel closing item) b fun xs ts _ => ClosedBy closing (Separated R) xs ts := by
  refine (meets_accept? b closing).bind fun r ts b1 hb1 hr => ?_
  rcases hr with ⟨c, rfl, rfl, hc⟩ | ⟨rfl, rfl, -⟩
  · exact meets_pure ⟨[], c, rfl, hc, .nil⟩
  have hlen1 := hb1.length_eq
  simp only [List.length_nil] at hlen1
  refine (meets_dueItem fun b2 hb2 => hitem b2 ?_).bind
    fun x ts b3 hb3 hx => ?_
  · have hlen2 := hb2.length_eq
    simp only [List.length_nil] at hlen2
    omega
  · have hlen3 := hb3.length_eq
    refine (meets_moreItems hclosing hitem fuel b3 (by omega) (by omega)).bind
      fun xs us b4 hb4 hxs => ?_
    obtain ⟨us, c, rfl, hc, hxs⟩ := hxs
    refine meets_pure ⟨ts ++ us, c, ?_, hc, .cons hx hxs⟩
    simp

end Items

theorem meets_parameter (b : Buffer) :
    Meets parameter b fun s ts _ => ReadsParameter s ts := by
  refine (meets_advance b (.inl (by decide))).bind fun t ts b' _ ht => ?_
  subst ht
  split
  · next s hs => exact meets_pure ⟨t, rfl, hs⟩
  · exact meets_fail (.unexpectedToken "a parameter" t)
      (show "a parameter" ∈ wantedTokens by decide)

/-! ## Ranges -/

theorem meets_number (b : Buffer) {expected : String} (hend : expected ∈ wantedAtEnd)
    (htoken : expected ∈ wantedTokens) :
    Meets (number expected) b fun r ts _ => ts = [r.2] ∧ r.2.lexeme = .number r.1 := by
  refine (meets_advance b (.inl hend)).bind fun t ts b' _ ht => ?_
  subst ht
  split
  · next v hv => exact meets_pure ⟨rfl, hv⟩
  · exact meets_fail (.unexpectedToken expected t) htoken

/-- A number that is known to come next is taken. -/
theorem meets_number_cons {Fault : ParseFault → Prop} {file : String} {b : Buffer} {t : Token}
    {us : List Token} {v : Value} (h : b.ahead.tokens = t :: us) (ht : t.lexeme = .number v)
    (expected : String) :
    MeetsIn Fault file (number expected) b fun r ts rest => r = (v, t) ∧ ts = [t] ∧ rest = us := by
  refine (meets_advance_cons h expected).bind fun u ts b' _ hu => ?_
  obtain ⟨rfl, rfl, hus⟩ := hu
  rw [ht]
  exact meets_pure ⟨rfl, rfl, hus⟩

/-- The length of a range.  What a length that is no natural number ends in is left open. -/
theorem meets_rangeCount {b : Buffer} {Ends : Failure → Prop}
    (hends : ∀ f, Verdict ParseFault.Possible anonymous b f → Ends f)
    (hlength : ∀ t v us, b.ahead.tokens = t :: us → t.lexeme = .number v →
      Ends (lengthFailure anonymous v t)) :
    MeetsWith Ends rangeCount b fun n ts _ =>
      ∃ t v, ts = [t] ∧ t.lexeme = .number v ∧ v.whole? = some n := by
  refine ((meets_number b (by decide) (by decide)).with hends).bind fun r ts b' hb' hr => ?_
  obtain ⟨v, t⟩ := r
  obtain ⟨rfl, hv⟩ := hr
  cases hn : v.whole? with
  | some n =>
    simp only [hn]
    exact meetsWith_pure ⟨t, v, rfl, hv, hn⟩
  | none =>
    simp only [hn]
    exact ⟨[], .refl b', hlength t v _ hb'.tokens hv⟩

/-- A length that is no natural number is a fault, or undefined. -/
theorem verdict_lengthFailure {b : Buffer} {opening first dots t : Token} {after : List Token}
    {start v : Value} (h : b.ahead.tokens = opening :: first :: dots :: t :: after)
    (ho : opening.lexeme = .particle .leftBracket) (hf : first.lexeme = .number start)
    (hd : dots.lexeme = .particle .range) (ht : t.lexeme = .number v) :
    Verdict ParseFault.Possible anonymous b (lengthFailure anonymous v t) := by
  rw [lengthFailure]
  split
  · next hundefined =>
    exact .undefined trivial ⟨[], opening, first, dots, after, start, v, h, ho, hf, hd, ht,
      hundefined⟩
  · exact .fault trivial

theorem meets_rangeStep (b : Buffer) :
    Meets rangeStep b fun r ts _ =>
      (r = none ∧ ts = []) ∨ ∃ s t v, r = v.present? ∧ ts = [s, t] ∧
        s.lexeme = .particle .semicolon ∧ t.lexeme = .number v := by
  refine (meets_accept? b .semicolon).bind fun r ts b1 _ hr => ?_
  rcases hr with ⟨s, rfl, rfl, hs⟩ | ⟨rfl, rfl, -⟩
  · refine (meets_number b1 (by decide) (by decide)).bind fun r ts b2 _ hr => ?_
    obtain ⟨v, t⟩ := r
    obtain ⟨rfl, hv⟩ := hr
    exact meets_pure (.inr ⟨s, t, v, rfl, rfl, hs, hv⟩)
  · exact meets_pure (.inl ⟨rfl, rfl⟩)

/-- A range that starts in the buffer `b₀`, after its opening bracket. -/
theorem meets_range {b₀ b : Buffer} {opening first dots : Token} {us : List Token} {v : Value}
    (ho : opening.lexeme = .particle .leftBracket) (hb : b₀.Consumes [opening] b)
    (h : b.ahead.tokens = first :: dots :: us) (hf : first.lexeme = .number v)
    (hd : dots.lexeme = .particle .range) :
    MeetsWith (Verdict ParseFault.Possible anonymous b₀) (range opening.pos) b fun e ts rest =>
      Parsed Expr.primaryRank e (opening :: ts) rest := by
  rw [range_eq]
  refine ((meets_number_cons h hf _).from hb).bind fun r ts b1 hb1 hr => ?_
  obtain ⟨rfl, rfl, h1⟩ := hr
  refine ((meets_advance_cons h1 _).from (hb.trans hb1)).bind fun u ts b2 hb2 hu => ?_
  obtain ⟨rfl, rfl, -⟩ := hu
  have hb2 := (hb.trans hb1).trans hb2
  refine (meets_rangeCount (fun _ => Verdict.of_consumes hb2) fun t w us ht hw =>
    verdict_lengthFailure (ht ▸ hb2.tokens) ho hf hd hw).bind fun n ts b3 hb3 hn => ?_
  obtain ⟨length, w, rfl, hl, hw⟩ := hn
  refine MeetsIn.from ?_ (hb2.trans hb3)
  refine (meets_rangeStep b3).bind fun step ts b4 _ hstep => ?_
  refine (meets_expectClosing b4 _ _).bind fun _ ts' b5 _ hclosing => ?_
  obtain ⟨closing, rfl, hc⟩ := hclosing
  refine meets_pure ?_
  rcases hstep with ⟨rfl, rfl⟩ | ⟨semicolon, t, x, rfl, rfl, hs, hx⟩
  · exact .of_closing [opening, first, u, length] (.range ho hf hd hl hw hc) (.range ..) rfl rfl hc
  · exact .of_closing [opening, first, u, length, semicolon, t]
      (.rangeStep ho hf hd hl hw hs hx hc) (.range ..) rfl rfl hc

/-! ## The tightest forms -/

section Primary

variable {expr : Parser Expr} {n fuel : Nat}

theorem Sound.item (hexpr : Sound expr 0 n) (b : Buffer) (hb : b.ahead.tokens.length < n) :
    Meets expr b fun e ts _ => e.WellRead ts :=
  (hexpr b hb).mono fun _ _ _ _ h => h.wellRead

theorem meets_call (hexpr : Sound expr 0 n) (hfuel : n ≤ fuel) {b : Buffer} {s : String}
    {word opening : Token} {us : List Token} (h : b.ahead.tokens = word :: opening :: us)
    (hn : us.length < n) (hw : word.lexeme = .name s)
    (ho : opening.lexeme = .particle .leftBrace) :
    Meets (call fuel expr s) b (Parsed Expr.primaryRank) := by
  refine (meets_advance_cons h _).bind fun t ts b1 _ ht => ?_
  obtain ⟨rfl, rfl, h1⟩ := ht
  refine (meets_advance_cons h1 _).bind fun t' ts b2 _ ht' => ?_
  obtain ⟨rfl, rfl, h2⟩ := ht'
  rw [← h2] at hn
  refine (meets_delimited (by decide) hexpr.item hn (Nat.lt_of_lt_of_le hn hfuel)).bind
    fun args ts b3 _ hargs => ?_
  obtain ⟨ts, closing, rfl, hc, hargs⟩ := hargs
  refine meets_pure ?_
  simpa using Parsed.call hw ho hargs hc

theorem meets_lambda (hexpr : Sound expr 0 n) (hfuel : n ≤ fuel) {b : Buffer}
    {word opening : Token} {us : List Token} (h : b.ahead.tokens = word :: opening :: us)
    (hn : us.length < n) (hw : word.lexeme = .name lambdaWord)
    (ho : opening.lexeme = .particle .leftParen) :
    Meets (lambda fuel expr) b (Parsed Expr.primaryRank) := by
  refine (meets_advance_cons h _).bind fun t ts b1 _ ht => ?_
  obtain ⟨rfl, rfl, h1⟩ := ht
  refine (meets_advance_cons h1 _).bind fun t' ts b2 _ ht' => ?_
  obtain ⟨rfl, rfl, h2⟩ := ht'
  rw [← h2] at hn
  refine (meets_delimited (by decide) (fun b _ => meets_parameter b) hn
    (Nat.lt_of_lt_of_le hn hfuel)).bind fun ps ts b3 hb3 hps => ?_
  obtain ⟨ts, closing, rfl, hc, hps⟩ := hps
  have hlen := hb3.length_eq
  refine (hexpr b3 (by omega)).bind fun body bs b4 _ hbody => ?_
  refine meets_pure ?_
  simpa using Parsed.lambda hw ho hps hc hbody

/-- A function starts with the word for it and a parenthesis. -/
theorem meets_atLambda {Fault : ParseFault → Prop} {file : String} {b : Buffer} {word : Token}
    {us : List Token} (h : b.ahead.tokens = word :: us) (s : String) :
    MeetsIn Fault file (atLambda s) b fun r ts rest =>
      ts = [] ∧ rest = word :: us ∧ (r = true ↔ s = lambdaWord ∧ Next .leftParen us) := by
  by_cases hs : s = lambdaWord
  · rw [atLambda, if_pos hs]
    refine (meets_check_second b .leftParen).mono fun r ts rest hsplit hr => ⟨hr.1, ?_⟩
    rw [hr.1, h, List.nil_append] at hsplit
    rw [hr.2, ← hsplit]
    exact ⟨rfl, (and_iff_right hs).symm⟩
  · rw [atLambda, if_neg hs]
    exact meets_pure ⟨rfl, h, fun hr => absurd hr (by decide), fun hr => absurd hr.1 hs⟩

/-- A call, a function, or the name alone. -/
theorem meets_named (hexpr : Sound expr 0 n) (hfuel : n ≤ fuel) {b : Buffer} {s : String}
    {word : Token} {us : List Token} (h : b.ahead.tokens = word :: us)
    (hn : us.length ≤ n) (hw : word.lexeme = .name s) :
    Meets (named fuel expr s) b (Parsed Expr.primaryRank) := by
  refine (meets_check_second b .leftBrace).bind_look fun r b1 hb1 hr => ?_
  have h1 : b1.ahead.tokens = word :: us := hb1.tokens.symm.trans h
  rw [h1, List.tail_cons] at hr
  by_cases hbrace : r = true
  · obtain ⟨opening, us, rfl, ho⟩ := exists_of_next (hr.1 hbrace)
    rw [if_pos hbrace]
    exact meets_call hexpr hfuel h1 hn hw ho
  rw [if_neg hbrace]
  have hcall : ¬ Next .leftBrace us := fun hnext => hbrace (hr.2 hnext)
  refine (meets_atLambda h1 s).bind_look fun r b2 hb2 hr2 => ?_
  by_cases hlambda : r = true
  · obtain ⟨rfl, hnext⟩ := hr2.2.1 hlambda
    obtain ⟨opening, us, rfl, ho⟩ := exists_of_next hnext
    rw [if_pos hlambda]
    exact meets_lambda hexpr hfuel hr2.1 hn hw ho
  · rw [if_neg hlambda]
    refine (meets_advance_cons hr2.1 _).bind fun t ts b3 _ ht => ?_
    obtain ⟨rfl, rfl, hrest⟩ := ht
    rw [← hrest] at hcall hr2
    exact meets_pure (.name hw hcall fun hs hnext => hlambda (hr2.2.2 ⟨hs, hnext⟩))

/-- A list or a range. -/
theorem meets_aggregate (hexpr : Sound expr 0 n) (hfuel : n ≤ fuel) {b : Buffer}
    {opening : Token} {us : List Token} (h : b.ahead.tokens = opening :: us)
    (hn : us.length < n) (ho : opening.lexeme = .particle .leftBracket) :
    Meets (aggregate fuel expr) b (Parsed Expr.primaryRank) := by
  refine ((meets_advance_cons h _).from (.refl b)).bind fun t ts b1 hb1 ht => ?_
  obtain ⟨rfl, rfl, h1⟩ := ht
  refine ((meets_nextTwo b1 .integer .range).from hb1).bind fun r ts b2 hb2 hr => ?_
  obtain ⟨rfl, hr⟩ := hr
  have h2 : b2.ahead.tokens = us := hb2.tokens.symm.trans h1
  by_cases hrange : r = true
  · obtain ⟨first, dots, ws, hws, hf, hd⟩ := exists_of_nextTwo (hr.1 hrange)
    obtain ⟨v, hf⟩ := Token.answers_integer.1 hf
    rw [if_pos hrange]
    exact meets_range ho (hb1.trans hb2) hws hf hd
  · rw [if_neg hrange]
    rw [← h2] at hn
    refine MeetsIn.from ?_ (hb1.trans hb2)
    refine (meets_delimited (by decide) hexpr.item hn (Nat.lt_of_lt_of_le hn hfuel)).bind
      fun values ts b3 _ hvalues => ?_
    obtain ⟨ts, closing, rfl, hc, hvalues⟩ := hvalues
    refine meets_pure ?_
    simpa using Parsed.list ho hvalues hc

theorem meets_group (hexpr : Sound expr 0 n) {b : Buffer} {opening : Token} {us : List Token}
    (h : b.ahead.tokens = opening :: us) (hn : us.length < n)
    (ho : opening.lexeme = .particle .leftParen) :
    Meets (group expr) b (Parsed Expr.primaryRank) := by
  refine (meets_advance_cons h _).bind fun t ts b1 _ ht => ?_
  obtain ⟨rfl, rfl, h1⟩ := ht
  rw [← h1] at hn
  refine (hexpr b1 hn).bind fun inner ts b2 _ hinner => ?_
  refine (meets_expectClosing b2 _ _).bind fun _ cs b3 _ hclosing => ?_
  obtain ⟨closing, rfl, hc⟩ := hclosing
  refine meets_pure ?_
  simpa using Parsed.group ho hinner.wellRead hc

/-- The tightest rule is sound where one token less leaves enough fuel for the expressions
inside. -/
theorem sound_primary (hexpr : Sound expr 0 n) (hfuel : n ≤ fuel) :
    Sound (primary fuel expr) Expr.primaryRank (n + 1) := by
  intro b hb
  refine (meets_peek_first b).bind_look fun next b1 hb1 hnext => ?_
  have hlen := hb1.length_eq
  subst hnext
  cases htokens : b1.ahead.tokens with
  | nil =>
    exact (meets_cursorPos b1).bind fun _ _ _ _ _ => meets_fail (.invalidExpression ..) trivial
  | cons t us =>
    rw [htokens, List.length_cons] at hlen
    simp only [List.head?_cons, Option.map_some]
    split
    · next v hv =>
      refine (meets_advance_cons htokens _).bind fun u ts b2 _ hu => ?_
      obtain ⟨rfl, rfl, -⟩ := hu
      exact meets_pure (.number (Option.some.inj hv))
    · next s hs => exact meets_named hexpr hfuel htokens (by omega) (Option.some.inj hs)
    · next hp => exact meets_group hexpr htokens (by omega) (Option.some.inj hp)
    · next hp => exact meets_aggregate hexpr hfuel htokens (by omega) (Option.some.inj hp)
    · exact (meets_cursorPos b1).bind fun _ _ _ _ _ => meets_fail (.invalidExpression ..) trivial

end Primary

/-! ## Operators -/

section Operators

variable {operand : Parser Expr} {n : Nat}

theorem meets_unary (hoperand : Sound operand Expr.primaryRank n) :
    ∀ (fuel : Nat) (b : Buffer), b.ahead.tokens.length < n → b.ahead.tokens.length < fuel →
      Meets (unary operand fuel) b (Parsed Expr.unaryRank) := by
  intro fuel
  induction fuel with
  | zero =>
    intro b _ hfuel
    exact absurd hfuel (Nat.not_lt_zero _)
  | succ fuel ih =>
    intro b hn hfuel
    refine (meets_operator? b unaryOperators).bind fun r ts b1 hb1 hr => ?_
    have hlen := hb1.length_eq
    rcases hr with ⟨t, op, rfl, rfl, ht, hop⟩ | ⟨rfl, rfl, -⟩
    · rw [List.length_singleton] at hlen
      refine (ih b1 (by omega) (by omega)).bind fun e us b2 _ he => ?_
      refine meets_pure ?_
      simpa using Parsed.unary ht hop he
    · rw [List.length_nil] at hlen
      exact (hoperand b1 (by omega)).mono fun e ts rest _ he => he.of_primary

/-- The loop of a tier: what has been read is a left operand, and each turn makes it longer. -/
theorem meets_chain {t : Tier} (hoperand : Sound operand (t.rank + 1) n) :
    ∀ (fuel : Nat) (b : Buffer) (left : Expr) (ls : List Token), b.ahead.tokens.length < n →
      b.ahead.tokens.length < fuel → Pending t left ls b.ahead.tokens →
      Meets (chain t.operators operand fuel left) b fun e us rest =>
        Parsed t.rank e (ls ++ us) rest := by
  intro fuel
  induction fuel with
  | zero =>
    intro b left ls _ hfuel _
    exact absurd hfuel (Nat.not_lt_zero _)
  | succ fuel ih =>
    intro b left ls hn hfuel hleft
    refine (meets_operator? b t.operators).bind fun r ts b1 hb1 hr => ?_
    have hlen1 := hb1.length_eq
    rcases hr with ⟨sign, op, rfl, rfl, hsign, hop⟩ | ⟨rfl, rfl, hops⟩
    · rw [List.length_singleton] at hlen1
      refine (hoperand b1 (by omega)).bind fun right rs b2 hb2 hright => ?_
      have hlen2 := hb2.length_eq
      have htokens : b.ahead.tokens = sign :: (rs ++ b2.ahead.tokens) := by
        rw [hb1.tokens, hb2.tokens]
        rfl
      rw [htokens] at hleft
      have hnext := hleft.binary hsign hop hright
      refine (ih b2 _ _ (by omega) (by omega) hnext).mono fun e us rest _ he => ?_
      simpa using he
    · rw [hb1.tokens, List.nil_append] at hleft
      refine meets_pure ?_
      rw [List.append_nil, List.append_nil]
      exact hleft.parsed hops

theorem sound_tier {t : Tier} {fuel : Nat} (hfuel : n ≤ fuel)
    (hoperand : Sound operand (t.rank + 1) n) : Sound (tier fuel t operand) t.rank n := by
  intro b hb
  refine (hoperand b hb).bind fun left ls b1 hb1 hleft => ?_
  have hlen := hb1.length_eq
  exact meets_chain hoperand fuel b1 left ls (by omega) (by omega) (.of_parsed hleft)

theorem sound_operation {fuel : Nat} (hfuel : n ≤ fuel)
    (hoperand : Sound operand Expr.unaryRank n) :
    Sound (operation fuel operand) Tier.equality.rank n := by
  have hfactor : Sound (tier fuel .factor operand) Tier.factor.rank n := sound_tier hfuel hoperand
  have hterm : Sound (tier fuel .term (tier fuel .factor operand)) Tier.term.rank n :=
    sound_tier hfuel hfactor
  have hlogic : Sound (tier fuel .logic (tier fuel .term (tier fuel .factor operand)))
      Tier.logic.rank n := sound_tier hfuel hterm
  exact sound_tier hfuel (t := .equality) (sound_tier hfuel (t := .comparison) hlogic)

end Operators

/-- A choice, or its condition alone. -/
theorem sound_ternary {condition branch : Parser Expr} {n : Nat}
    (hcondition : Sound condition Tier.equality.rank (n + 1)) (hbranch : Sound branch 0 n) :
    Sound (ternary condition branch) 0 (n + 1) := by
  intro b hb
  refine (hcondition b hb).bind fun c cs b1 hb1 hc => ?_
  have hlen1 := hb1.length_eq
  refine (meets_accept? b1 .question).bind fun r ts b2 hb2 hr => ?_
  have hlen2 := hb2.length_eq
  rcases hr with ⟨question, rfl, rfl, hq⟩ | ⟨rfl, rfl, hq⟩
  · rw [List.length_singleton] at hlen2
    refine (hbranch b2 (by omega)).bind fun t us b3 hb3 ht => ?_
    have hlen3 := hb3.length_eq
    refine (meets_accept? b3 .colon).bind fun r ks b4 hb4 hr => ?_
    have hlen4 := hb4.length_eq
    rcases hr with ⟨colon, rfl, rfl, hk⟩ | ⟨rfl, rfl, -⟩
    · refine (hbranch b4 (by omega)).bind fun e es b5 _ he => ?_
      have hnext : Next .question b1.ahead.tokens := by
        rw [hb2.tokens]
        exact next_cons.2 hq
      have hend := hc.stops.endsInLambda_eq_false_of_question hnext
      refine meets_pure ?_
      simpa using Parsed.ternary hc.wellRead hc.rank hend hq ht.wellRead hk he
    · exact (meets_peek_first b4).bind fun _ _ _ _ _ => meets_fail (.missingToken ..) trivial
  · rw [hb2.tokens, List.nil_append] at hc
    refine meets_pure ?_
    simpa using hc.of_no_question hq

/-- The rule of whole expressions is sound where its fuel exceeds the tokens ahead.  Every
expression inside an expression has at least one token less to read and one unit of fuel
less. -/
theorem sound_expression (fuel : Nat) : Sound (expression fuel) 0 fuel := by
  induction fuel with
  | zero =>
    intro b hb
    exact absurd hb (Nat.not_lt_zero _)
  | succ fuel ih =>
    have hprimary := sound_primary ih (Nat.le_succ fuel)
    have hunary : Sound (unary (primary (fuel + 1) (expression fuel)) (fuel + 1))
        Expr.unaryRank (fuel + 1) := fun b hb => meets_unary hprimary (fuel + 1) b hb hb
    exact sound_ternary (sound_operation (Nat.le_refl _) hunary) ih

/-! ## Statements -/

/-- The weight of a buffer is enough fuel for any expression. -/
theorem meets_wholeExpression (b : Buffer) : Meets wholeExpression b (Parsed 0) :=
  sound_expression (b.weight + 1) b (Nat.lt_succ_of_le b.length_ahead_le_weight)

/-- An assignment, where the name and the sign are known to come next. -/
theorem meets_assignment {b : Buffer} {target sign : Token} {us : List Token} {s : String}
    (h : b.ahead.tokens = target :: sign :: us) (ht : target.lexeme = .name s)
    (hs : sign.lexeme = .particle .assign) : Meets assignment b ParsedStmt := by
  refine (meets_advance_cons h _).bind fun t ts b1 _ htarget => ?_
  obtain ⟨rfl, rfl, h1⟩ := htarget
  rw [ht]
  refine (meets_advance_cons h1 _).bind fun t' ts b2 _ hsign => ?_
  obtain ⟨rfl, rfl, -⟩ := hsign
  refine (meets_wholeExpression b2).bind fun e es b3 _ he => ?_
  refine meets_pure ?_
  simpa using ParsedStmt.assign ht hs he

theorem meets_bareStatement (b : Buffer) : Meets bareStatement b ParsedStmt := by
  refine (meets_nextTwo b .identifier .assign).bind_look fun r b1 _ hr => ?_
  by_cases hassign : r = true
  · obtain ⟨target, sign, us, htokens, ht, hs⟩ := exists_of_nextTwo (hr.1 hassign)
    obtain ⟨s, ht⟩ := Token.answers_identifier.1 ht
    rw [if_pos hassign]
    exact meets_assignment htokens ht hs
  · rw [if_neg hassign]
    refine (meets_wholeExpression b1).bind fun e es b2 _ he => ?_
    refine meets_pure ?_
    simpa using ParsedStmt.expression he

/-- The name of the source is filled into the faults of the grammar, and only there. -/
theorem Verdict.inFile {Fault : ParseFault → Prop} {b : Buffer} {f : Failure}
    (h : Verdict Fault anonymous b f) :
    Verdict Fault b.cursor.filename b (f.inFile b.cursor.filename) := by
  cases h with
  | scanning hf =>
    rcases refuses_of_ahead hf with ⟨e, rfl, -⟩ | ⟨text, e, -, -, -, rfl⟩
    · exact .scanning hf
    · exact .scanning hf
  | shallow hc ho => exact .shallow hc ho
  | fault hx => exact .fault hx
  | undefined hfault ht => exact .undefined hfault ht

/-- A statement does what its rule does. -/
theorem meets_statement {Fault : ParseFault → Prop} {b : Buffer}
    {Post : Stmt → List Token → List Token → Prop}
    (hbare : MeetsIn Fault anonymous bareStatement b Post) :
    MeetsIn Fault b.cursor.filename statement b Post := by
  unfold MeetsIn MeetsWith at hbare
  unfold MeetsIn MeetsWith statement
  cases hrun : bareStatement b with
  | ok s b' =>
    rw [hrun] at hbare
    exact hbare
  | error f b' =>
    rw [hrun] at hbare
    obtain ⟨ts, hconsumes, hv⟩ := hbare
    exact ⟨ts, hconsumes, hv.inFile⟩

/-- Nothing is left at the end, not even a failure. -/
theorem meets_isEnd (Fault : ParseFault → Prop) (file : String) (b : Buffer) :
    MeetsIn Fault file isEnd b fun r ts rest => ts = [] ∧
      (if r = true then rest = [] ∧ b.ahead.failure? = none else rest ≠ []) := by
  have hend := b.isEnd_ahead
  unfold MeetsIn MeetsWith
  cases hrun : isEnd b with
  | error f b' =>
    rw [hrun] at hend
    exact ⟨[], hend.1, .of_unreadable hend.2 (by decide)⟩
  | ok r b' =>
    rw [hrun] at hend
    cases r with
    | true =>
      obtain ⟨hsame, hempty⟩ := hend
      have htokens := hsame.tokens
      rw [hempty] at htokens
      refine ⟨[], hsame, rfl, ?_⟩
      rw [if_pos rfl, hempty]
      exact ⟨htokens.symm, rfl⟩
    | false =>
      obtain ⟨hsame, hne⟩ := hend
      refine ⟨[], hsame, rfl, ?_⟩
      rw [hsame.tokens] at hne
      exact hne

/-- The statements to the end of input are a program, and scanning it does not fail. -/
theorem meets_statements (fuel : Nat) (b : Buffer) (hfuel : b.ahead.tokens.length < fuel) :
    MeetsIn ParseFault.Possible b.cursor.filename (statements fuel) b fun ss ts rest =>
      rest = [] ∧ b.ahead.failure? = none ∧ Program ss ts := by
  induction fuel generalizing b with
  | zero => exact absurd hfuel (Nat.not_lt_zero _)
  | succ fuel ih =>
    refine (meets_isEnd _ _ b).bind_look fun r b1 hb1 hr => ?_
    cases r with
    | true =>
      rw [if_pos rfl] at hr ⊢
      exact meets_pure ⟨hr.1, hr.2, .nil⟩
    | false =>
      rw [if_neg (by decide)] at hr ⊢
      have hlen1 := hb1.length_eq
      rw [← hb1.filename]
      refine (meets_statement (meets_bareStatement b1)).bind fun s ts b2 hb2 hs => ?_
      have hlen2 := hb2.length_eq
      have hpos : 0 < ts.length := List.length_pos_iff.2 hs.reads.ne_nil
      rw [List.length_nil] at hlen1
      rw [← hb2.filename]
      refine (ih b2 (by omega)).bind fun ss us b3 hb3 hss => ?_
      obtain ⟨hrest, hfailure, hprogram⟩ := hss
      refine meets_pure ⟨hrest, ?_, ?_⟩
      · rw [← hb1.failure, ← hb2.failure]
        exact hfailure
      · rw [hb3.tokens, hrest, List.append_nil] at hs
        rw [List.append_nil]
        exact .cons hs hprogram

theorem meets_program (b : Buffer) :
    MeetsIn ParseFault.Possible b.cursor.filename program b fun ss ts rest =>
      rest = [] ∧ b.ahead.failure? = none ∧ Program ss ts :=
  meets_statements (b.weight + 1) b (Nat.lt_succ_of_le b.length_ahead_le_weight)

end Grammar

/-! ## Settings -/

/-- The lookahead reaches as far as the grammar looks, as `Config.make` demands. -/
def Config.Valid (c : Config) : Prop := minLookahead ≤ c.maxLookahead

theorem Config.valid_of_make {numberType : NumberType} {filename : String} {maxLookahead : Int}
    {c : Config} (h : Config.make numberType filename maxLookahead = .ok c) : c.Valid := by
  unfold Config.make at h
  split at h
  · cases h
  · split at h
    · cases h
    · next hlookahead =>
      cases h
      exact Int.not_lt.1 hlookahead

theorem Config.valid_standard : Config.standard.Valid := by
  have hmake : Config.make (.named "float") anonymous standardLookahead = .ok .standard := rfl
  exact Config.valid_of_make hmake

/-! ## Sources -/

/-- How parsing a source may end.  An answer is a program made of all the tokens of the
source, none of which fails to be scanned; a failure is a verdict with the name of the source. -/
theorem parseProgram_cases (c : Config) (source : String) :
    match parseProgram c source with
    | .ok ss => (c.session source).ahead.failure? = none ∧
        Program ss (c.session source).ahead.tokens
    | .error f => Grammar.Verdict ParseFault.Possible c.filename (c.session source) f := by
  have hmeets := Grammar.meets_program (c.session source)
  unfold Grammar.MeetsIn Grammar.MeetsWith at hmeets
  unfold parseProgram
  cases hrun : Grammar.program (c.session source) with
  | ok ss b' =>
    rw [hrun] at hmeets
    obtain ⟨ts, hconsumes, hrest, hfailure, hprogram⟩ := hmeets
    rw [hconsumes.tokens, hrest, List.append_nil]
    exact ⟨hfailure, hprogram⟩
  | error f b' =>
    rw [hrun] at hmeets
    obtain ⟨ts, -, hv⟩ := hmeets
    exact hv

/-- Where the converter never gives nothing, no token ahead is a number that is nothing. -/
theorem Config.definite_session {c : Config} (hconvert : ∀ text, c.convert text ≠ .ok .nothing)
    (source : String) : Definite (c.session source).ahead.tokens := by
  intro t ht hnothing
  obtain ⟨text, -, htext⟩ :=
    (Cursor.start source c.filename c.convert).convert_of_mem_ahead t ht .nothing hnothing
  exact hconvert _ htext

/-- Parsing drops nothing: the statements of a source yield exactly the lexemes of its
significant tokens, and every one of them yields some.  All trees are stratified. -/
theorem parseProgram_sound {c : Config} {source : String} {ss : List Stmt}
    (hconvert : ∀ text, c.convert text ≠ .ok .nothing) (h : parseProgram c source = .ok ss) :
    (∀ includeSkips, ∃ ts, tokenize source c.filename c.convert includeSkips = .ok ts ∧
      Spelled (ss.flatMap Stmt.yield) (significant ts)) ∧
    (∀ s ∈ ss, s.yield ≠ []) ∧ ∀ s ∈ ss, s.Stratified := by
  have hcases := parseProgram_cases c source
  rw [h] at hcases
  obtain ⟨hfailure, hprogram⟩ := hcases
  refine ⟨fun includeSkips => ?_, fun s _ => s.yield_ne_nil, hprogram.stratified⟩
  obtain ⟨ts, hts, hsignificant⟩ := tokenize_of_ahead hfailure includeSkips
  refine ⟨ts, hts, ?_⟩
  rw [hsignificant]
  exact hprogram.yield (Config.definite_session hconvert source)

/-- Integers, with the body of a function in the middle of an operand. -/
theorem parseProgram_sound_function :
    ∃ ss, parseProgram ⟨.integer, anonymous, 2⟩
        "f = 2 * fn(x) x ? -x : [1 .. 3] f\x7b1\x7d" = .ok ss ∧
      ss.length = 2 ∧
      (∀ includeSkips, ∃ ts,
        tokenize "f = 2 * fn(x) x ? -x : [1 .. 3] f\x7b1\x7d" anonymous .integer includeSkips =
          .ok ts ∧
        Spelled (ss.flatMap Stmt.yield) (significant ts)) ∧
      (∀ s ∈ ss, s.yield ≠ []) ∧ ∀ s ∈ ss, s.Stratified := by
  have hrun : (parseProgram ⟨.integer, anonymous, 2⟩
      "f = 2 * fn(x) x ? -x : [1 .. 3] f\x7b1\x7d").toOption.map List.length = some 2 := by
    decide +kernel
  cases h : parseProgram ⟨.integer, anonymous, 2⟩ "f = 2 * fn(x) x ? -x : [1 .. 3] f\x7b1\x7d" with
  | error f =>
    rw [h] at hrun
    cases hrun
  | ok ss =>
    rw [h] at hrun
    refine ⟨ss, rfl, Option.some.inj hrun, ?_⟩
    have hinteger : ∀ text, Converter.integer text ≠ .ok .nothing := by
      intro text
      rw [Converter.integer]
      cases Converter.readInteger text with
      | error e => nofun
      | ok n => nofun
    exact parseProgram_sound hinteger h

end ExprFront
