import ExprFront.Proofs.Soundness

/-!
# The grammar reads what is built

Each rule of the grammar answers everything that is parsed: if the tokens ahead are `ts`
followed by `rest`, and `Parsed k e ts rest` holds, then the rule of rank `k` answers `e` and
leaves `rest` (`Completes`).  The grammar commits itself after a look at two tokens, so for
every form of expression it has to be shown that no commitment misfires (`Opens`), and that
every loop stops at the right token (`Stops`).

Success is again a contract, with no fault allowed (`Answers`).  Only scanning or a buffer
that is too shallow can then stand in the way, and both are ruled out at the very end.

Main result: `program_answers`.
-/

namespace ExprFront

open Grammar (lambdaWord unaryOperators)

/-! ## How expressions begin -/

/-- The particles that an expression can begin with. -/
def openers : List Particle := [.leftParen, .leftBracket, .logicalNot, .minus]

/-- The tokens can begin an expression, and their first two are neither the start of a range
nor the start of an assignment. -/
structure Opens (ts : List Token) : Prop where
  particle : ∀ p, Next p ts → p ∈ openers
  range : ¬ NextTwo .integer .range ts
  assign : ¬ NextTwo .identifier .assign ts

namespace Opens

variable {t : Token} {us : List Token}

theorem of_particle {p : Particle} (ht : t.lexeme = .particle p) (hp : p ∈ openers) :
    Opens (t :: us) where
  particle q hq := by
    rw [next_cons, ht] at hq
    cases hq
    exact hp
  range h := by
    obtain ⟨v, hv⟩ := Token.answers_integer.1 h.1
    rw [ht] at hv
    cases hv
  assign h := by
    obtain ⟨s, hs⟩ := Token.answers_identifier.1 h.1
    rw [ht] at hs
    cases hs

theorem of_number {v : Value} (ht : t.lexeme = .number v) (hus : ¬ Next .range us) :
    Opens (t :: us) where
  particle q hq := by
    rw [next_cons, ht] at hq
    cases hq
  range h := hus h.2
  assign h := by
    obtain ⟨s, hs⟩ := Token.answers_identifier.1 h.1
    rw [ht] at hs
    cases hs

theorem of_name {s : String} (ht : t.lexeme = .name s) (hus : ¬ Next .assign us) :
    Opens (t :: us) where
  particle q hq := by
    rw [next_cons, ht] at hq
    cases hq
  range h := by
    obtain ⟨v, hv⟩ := Token.answers_integer.1 h.1
    rw [ht] at hv
    cases hv
  assign h := hus h.2

end Opens

/-- Another particle than the one that comes next does not come next. -/
theorem not_next_cons {t : Token} {us : List Token} {p q : Particle}
    (ht : t.lexeme = .particle p) (hpq : p ≠ q) : ¬ Next q (t :: us) := by
  rw [next_cons, ht]
  intro h
  cases h
  exact hpq rfl

theorem Tier.ne_of_mem_operators {t : Tier} {op p : Particle} (hop : op ∈ t.operators)
    (hp : Tier.ofOperator? p = none) : op ≠ p := by
  rintro rfl
  exact Tier.notMem_operators hp t hop

/-- A stratified tree opens what it is read from.  The tokens after it matter when it is a
single token. -/
theorem Expr.Reads.opens {e : Expr} {ts : List Token} (h : e.Reads ts) :
    e.Stratified → ∀ rest, ¬ Next .range rest → ¬ Next .assign rest → Opens (ts ++ rest) := by
  induction h with
  | number ht =>
    intro _ rest hrange _
    exact .of_number ht hrange
  | name ht =>
    intro _ rest _ hassign
    exact .of_name ht hassign
  | group ho =>
    intro _ rest _ _
    exact .of_particle ho (by decide)
  | unary ht _ _ =>
    intro hstrat rest _ _
    cases hstrat with
    | unary hop _ _ =>
      have hopener : ∀ p ∈ unaryOperators, p ∈ openers := by decide
      exact .of_particle ht (hopener _ hop)
  | @binary op l r sign ls rs _ ht _ ihl _ =>
    intro hstrat rest _ _
    cases hstrat with
    | binary t hop _ _ _ hl _ =>
      rw [List.append_assoc]
      exact ihl hl (sign :: rs ++ rest) (not_next_cons ht (Tier.ne_of_mem_operators hop rfl))
        (not_next_cons ht (Tier.ne_of_mem_operators hop rfl))
  | ternary _ hq _ _ _ ihc _ _ =>
    intro hstrat rest _ _
    cases hstrat with
    | ternary _ _ hc _ _ =>
      rw [List.append_assoc]
      exact ihc hc _ (not_next_cons hq (by decide)) (not_next_cons hq (by decide))
  | call hw ho _ _ _ _ =>
    intro _ rest _ _
    exact .of_name hw (not_next_cons ho (by decide))
  | lambda hw ho _ _ _ _ =>
    intro _ rest _ _
    exact .of_name hw (not_next_cons ho (by decide))
  | list ho _ _ _ _ =>
    intro _ rest _ _
    exact .of_particle ho (by decide)
  | range ho _ _ _ _ _ =>
    intro _ rest _ _
    exact .of_particle ho (by decide)
  | rangeStep ho _ _ _ _ _ _ _ =>
    intro _ rest _ _
    exact .of_particle ho (by decide)

namespace Grammar

open Buffer

/-! ## Success as a contract -/

/-- The rule answers `a` and leaves `rest` ahead, with no fault. -/
def Answers {α : Type} (p : Parser α) (b : Buffer) (a : α) (rest : List Token) : Prop :=
  MeetsIn (fun _ => False) anonymous p b fun x _ us => x = a ∧ us = rest

section Composition

variable {α β : Type} {b : Buffer} {rest : List Token}

theorem answers_pure {a : α} (h : b.ahead.tokens = rest) : Answers (pure a) b a rest :=
  meets_pure ⟨rfl, h⟩

/-- A rule goes on where the rule before it has left the tokens. -/
theorem Answers.bind {p : Parser α} {f : α → Parser β} {a : α} {c : β} {us : List Token}
    (hp : Answers p b a us) (hf : ∀ b', b'.ahead.tokens = us → Answers (f a) b' c rest) :
    Answers (p >>= f) b c rest := by
  refine MeetsIn.bind hp fun x ts b' _ hx => ?_
  obtain ⟨rfl, hus⟩ := hx
  exact hf b' hus

/-- A rule that only looks. -/
theorem answers_of_look {p : Parser α} {a : α} {R : α → List Token → Prop}
    (hp : MeetsIn (fun _ => False) anonymous p b fun x ts us => ts = [] ∧ R x us)
    (h : b.ahead.tokens = rest) (ha : ∀ x, R x rest → x = a) : Answers p b a rest := by
  refine hp.mono fun x ts us hsplit hx => ?_
  rw [h, hx.1, List.nil_append] at hsplit
  subst hsplit
  exact ⟨ha x hx.2, rfl⟩

end Composition

section Tokens

variable {b : Buffer} {t : Token} {rest : List Token} {p : Particle}

theorem answers_peek (h : b.ahead.tokens = t :: rest) :
    Answers (peek 0) b (some t) (t :: rest) :=
  answers_of_look (meets_peek_first b) h fun _ hx => hx

theorem answers_check_false (h : b.ahead.tokens = rest) (hp : ¬ Next p rest) :
    Answers (check p 0) b false rest :=
  answers_of_look (meets_check b p) h fun _ hx => Bool.eq_false_iff.2 fun ht => hp (hx.1 ht)

theorem answers_check_second_false (h : b.ahead.tokens = rest) (hp : ¬ Next p rest.tail) :
    Answers (check p 1) b false rest :=
  answers_of_look (meets_check_second b p) h fun _ hx =>
    Bool.eq_false_iff.2 fun ht => hp (hx.1 ht)

theorem answers_check_second_true (h : b.ahead.tokens = rest) (hp : Next p rest.tail) :
    Answers (check p 1) b true rest :=
  answers_of_look (meets_check_second b p) h fun _ hx => hx.2 hp

theorem answers_nextTwo_false {k : Kind} (h : b.ahead.tokens = rest) (hp : ¬ NextTwo k p rest) :
    Answers (do if ← hasKind k 0 then check p 1 else return false) b false rest :=
  answers_of_look (meets_nextTwo b k p) h fun _ hx => Bool.eq_false_iff.2 fun ht => hp (hx.1 ht)

theorem answers_nextTwo_true {k : Kind} (h : b.ahead.tokens = rest) (hp : NextTwo k p rest) :
    Answers (do if ← hasKind k 0 then check p 1 else return false) b true rest :=
  answers_of_look (meets_nextTwo b k p) h fun _ hx => hx.2 hp

theorem answers_advance (h : b.ahead.tokens = t :: rest) (expected : String) :
    Answers (advance expected) b t rest :=
  (meets_advance_cons h expected).mono fun _ _ _ _ hx => ⟨hx.1, hx.2.2⟩

theorem answers_accept? (h : b.ahead.tokens = t :: rest) (ht : t.lexeme = .particle p) :
    Answers (accept? p) b (some t) rest := by
  refine (meets_accept? b p).mono fun r ts us hsplit hr => ?_
  rw [h] at hsplit
  rcases hr with ⟨u, rfl, rfl, -⟩ | ⟨rfl, rfl, hne⟩
  · cases hsplit
    exact ⟨rfl, rfl⟩
  · cases hsplit
    exact absurd (next_cons.2 ht) hne

theorem answers_accept?_none (h : b.ahead.tokens = rest) (hp : ¬ Next p rest) :
    Answers (accept? p) b none rest := by
  refine (meets_accept? b p).mono fun r ts us hsplit hr => ?_
  rw [h] at hsplit
  rcases hr with ⟨u, rfl, rfl, hu⟩ | ⟨rfl, rfl, -⟩
  · rw [hsplit] at hp
    exact absurd (next_cons.2 hu) hp
  · exact ⟨rfl, hsplit.symm⟩

theorem answers_operator? {op : Particle} {ops : List Particle}
    (h : b.ahead.tokens = t :: rest) (ht : t.lexeme = .particle op) (hop : op ∈ ops) :
    Answers (operator? ops) b (some op) rest := by
  refine (meets_operator? b ops).mono fun r ts us hsplit hr => ?_
  rw [h] at hsplit
  rcases hr with ⟨u, op', rfl, rfl, hu, -⟩ | ⟨rfl, rfl, hne⟩
  · cases hsplit
    rw [ht] at hu
    cases hu
    exact ⟨rfl, rfl⟩
  · cases hsplit
    exact absurd (next_cons.2 ht) (hne op hop)

theorem answers_operator?_none {ops : List Particle} (h : b.ahead.tokens = rest)
    (hops : ∀ op ∈ ops, ¬ Next op rest) : Answers (operator? ops) b none rest := by
  refine (meets_operator? b ops).mono fun r ts us hsplit hr => ?_
  rw [h] at hsplit
  rcases hr with ⟨u, op, rfl, rfl, hu, hop⟩ | ⟨rfl, rfl, -⟩
  · rw [hsplit] at hops
    exact absurd (next_cons.2 hu) (hops op hop)
  · exact ⟨rfl, hsplit.symm⟩

theorem answers_expectClosing (h : b.ahead.tokens = t :: rest) (ht : t.lexeme = .particle p)
    (message : String) : Answers (expectClosing p message) b () rest :=
  (answers_accept? h ht).bind fun _ hb => answers_pure hb

theorem answers_number {v : Value} (h : b.ahead.tokens = t :: rest)
    (ht : t.lexeme = .number v) (expected : String) :
    Answers (number expected) b (v, t) rest :=
  (meets_number_cons h ht expected).mono fun _ _ _ _ hx => ⟨hx.1, hx.2.2⟩

end Tokens

/-! ## Items between delimiters -/

section Items

variable {α : Type} {item : Parser α} {R : α → List Token → Prop} {closing : Particle} {n : Nat}

/-- What can follow an item: a comma or the closing delimiter. -/
def ItemEnds (closing : Particle) (rest : List Token) : Prop := Next .comma rest ∨ Next closing rest

/-- The rule answers items of fewer than `n` tokens, and does not take a comma or a closing
delimiter for the start of one. -/
structure CompletesItem (item : Parser α) (R : α → List Token → Prop) (closing : Particle)
    (n : Nat) : Prop where
  answers : ∀ {x : α} {ts rest : List Token} {b : Buffer}, R x ts → ts.length < n →
    ItemEnds closing rest → b.ahead.tokens = ts ++ rest → Answers item b x rest
  starts : ∀ {x : α} {ts rest : List Token}, R x ts → ItemEnds closing rest →
    ¬ ItemEnds closing (ts ++ rest)

theorem answers_dueItem {b : Buffer} {x : α} {ts rest : List Token}
    (hitem : CompletesItem item R closing n) (hx : R x ts) (hn : ts.length < n)
    (hrest : ItemEnds closing rest) (hb : b.ahead.tokens = ts ++ rest) :
    Answers (dueItem item) b x rest := by
  have hcomma : ¬ Next .comma (ts ++ rest) := fun h => hitem.starts hx hrest (.inl h)
  exact (answers_accept?_none hb hcomma).bind fun b' hb' => hitem.answers hx hn hrest hb'

theorem itemEnds_of_following {xs : List α} {us : List Token} {c : Token}
    (h : Following R xs us) (hc : c.lexeme = .particle closing) (rest : List Token) :
    ItemEnds closing (us ++ c :: rest) := by
  cases h with
  | nil => exact .inr (next_cons.2 hc)
  | cons hcomma _ _ => exact .inl (next_cons.2 hcomma)

theorem answers_moreItems (hclosing : closing ∈ listClosers)
    (hitem : CompletesItem item R closing n) {xs : List α} {us : List Token}
    (h : Following R xs us) {c : Token} (hc : c.lexeme = .particle closing) (rest : List Token) :
    ∀ (fuel : Nat) (b : Buffer), us.length < n → us.length < fuel →
      b.ahead.tokens = us ++ c :: rest → Answers (moreItems closing item fuel) b xs rest := by
  induction h with
  | nil =>
    intro fuel b _ hfuel hb
    cases fuel with
    | zero => exact absurd hfuel (Nat.not_lt_zero _)
    | succ fuel => exact (answers_accept? hb hc).bind fun b' hb' => answers_pure hb'
  | @cons x xs comma ts us hcomma hx tail ih =>
    intro fuel b hn hfuel hb
    rw [List.length_cons, List.length_append] at hn hfuel
    rw [List.cons_append, List.append_assoc] at hb
    have hne : Particle.comma ≠ closing := by
      rintro rfl
      exact absurd hclosing (by decide)
    have hends := itemEnds_of_following tail hc rest
    cases fuel with
    | zero => exact absurd hfuel (Nat.not_lt_zero _)
    | succ fuel =>
      refine (answers_accept?_none hb (not_next_cons hcomma hne)).bind fun b1 hb1 => ?_
      refine (answers_accept? hb1 hcomma).bind fun b2 hb2 => ?_
      have hstart : ¬ Next closing (ts ++ (us ++ c :: rest)) :=
        fun hnext => hitem.starts hx hends (.inr hnext)
      refine (answers_check_false hb2 hstart).bind fun b3 hb3 => ?_
      rw [if_neg (by decide)]
      refine (answers_dueItem hitem hx (by omega) hends hb3).bind fun b4 hb4 => ?_
      refine (ih fuel b4 (by omega) (by omega) hb4).bind fun b5 hb5 => ?_
      exact answers_pure hb5

theorem answers_delimited (hclosing : closing ∈ listClosers)
    (hitem : CompletesItem item R closing n) {xs : List α} {us rest : List Token}
    (h : Separated R xs us) {c : Token} (hc : c.lexeme = .particle closing) {fuel : Nat}
    {b : Buffer} (hn : us.length < n) (hfuel : us.length < fuel)
    (hb : b.ahead.tokens = us ++ c :: rest) : Answers (delimited fuel closing item) b xs rest := by
  cases h with
  | nil => exact (answers_accept? hb hc).bind fun b' hb' => answers_pure hb'
  | @cons x xs ts us hx tail =>
    rw [List.length_append] at hn hfuel
    rw [List.append_assoc] at hb
    have hends := itemEnds_of_following tail hc rest
    have hstart : ¬ Next closing (ts ++ (us ++ c :: rest)) :=
      fun hnext => hitem.starts hx hends (.inr hnext)
    refine (answers_accept?_none hb hstart).bind fun b1 hb1 => ?_
    refine (answers_dueItem hitem hx (by omega) hends hb1).bind fun b2 hb2 => ?_
    refine (answers_moreItems hclosing hitem tail hc rest fuel b2 (by omega) (by omega)
      hb2).bind fun b3 hb3 => ?_
    exact answers_pure hb3

end Items

theorem completesItem_parameter (n : Nat) :
    CompletesItem parameter ReadsParameter .rightParen n where
  answers := by
    rintro s _ rest b ⟨t, rfl, ht⟩ _ _ hb
    refine (answers_advance hb _).bind fun b' hb' => ?_
    rw [ht]
    exact answers_pure hb'
  starts := by
    rintro s _ rest ⟨t, rfl, ht⟩ _ (hnext | hnext)
    · rw [List.singleton_append, next_cons, ht] at hnext
      cases hnext
    · rw [List.singleton_append, next_cons, ht] at hnext
      cases hnext

/-! ## The tightest forms -/

/-- The rule answers what is parsed at rank `k` from fewer than `n` tokens. -/
def Completes (p : Parser Expr) (k n : Nat) : Prop :=
  ∀ ⦃b : Buffer⦄ ⦃e : Expr⦄ ⦃ts rest : List Token⦄, Parsed k e ts rest → ts.length < n →
    b.ahead.tokens = ts ++ rest → Answers p b e rest

section Primary

variable {expr : Parser Expr} {n fuel : Nat} {b : Buffer} {rest : List Token}

theorem ItemEnds.not_next {closing p : Particle} (h : ItemEnds closing rest)
    (hclosing : closing ∈ Stops.closers) (hp : p ∉ Stops.closers) : ¬ Next p rest := by
  intro hnext
  rcases h with h | h
  · exact hp (hnext.unique h ▸ by decide)
  · exact hp (hnext.unique h ▸ hclosing)

theorem ItemEnds.opens {closing : Particle} {e : Expr} {ts : List Token}
    (h : ItemEnds closing rest) (hclosing : closing ∈ Stops.closers) (he : e.WellRead ts) :
    Opens (ts ++ rest) :=
  he.1.opens he.2 rest (h.not_next hclosing (by decide)) (h.not_next hclosing (by decide))

theorem Completes.item (hexpr : Completes expr 0 n) {closing : Particle}
    (hclosing : closing ∈ Stops.closers) : CompletesItem expr Expr.WellRead closing n where
  answers := by
    intro e ts rest b he hn hrest hb
    have hstops : Stops 0 e ts rest := by
      rcases hrest with hnext | hnext
      · exact .of_closer (by decide) hnext
      · exact .of_closer hclosing hnext
    exact hexpr ⟨he.1, he.2, Nat.zero_le _, hstops⟩ hn hb
  starts := by
    intro e ts rest he hrest hends
    have hopens := hrest.opens hclosing he
    have hcloser : ∀ p ∈ Stops.closers, p ∉ openers := by decide
    rcases hends with h | h
    · exact absurd (hopens.particle _ h) (by decide)
    · exact absurd (hopens.particle _ h) (hcloser closing hclosing)

theorem answers_call (hexpr : Completes expr 0 n) (hfuel : n ≤ fuel) {s : String}
    {args : List Expr} {word opening closing : Token} {ts : List Token}
    (ho : opening.lexeme = .particle .leftBrace) (hargs : Separated Expr.WellRead args ts)
    (hc : closing.lexeme = .particle .rightBrace) (hn : ts.length < n)
    (hb : b.ahead.tokens = word :: opening :: (ts ++ closing :: rest)) :
    Answers (named fuel expr s) b (.call s args word.pos) rest := by
  refine (answers_check_second_true hb (next_cons.2 ho)).bind fun b1 hb1 => ?_
  rw [if_pos rfl]
  refine (answers_advance hb1 _).bind fun b2 hb2 => ?_
  refine (answers_advance hb2 _).bind fun b3 hb3 => ?_
  refine (answers_delimited (by decide) (hexpr.item (by decide)) hargs hc hn (by omega)
    hb3).bind fun b4 hb4 => ?_
  exact answers_pure hb4

theorem answers_atLambda {s : String} {us : List Token} (hb : b.ahead.tokens = us)
    (hlambda : s = lambdaWord → ¬ Next .leftParen us.tail) : Answers (atLambda s) b false us := by
  unfold atLambda
  by_cases hs : s = lambdaWord
  · rw [if_pos hs]
    exact answers_check_second_false hb (hlambda hs)
  · rw [if_neg hs]
    exact answers_pure hb

theorem answers_name {s : String} {word : Token} (hcall : ¬ Next .leftBrace rest)
    (hlambda : s = lambdaWord → ¬ Next .leftParen rest) (hb : b.ahead.tokens = word :: rest) :
    Answers (named fuel expr s) b (.name s word.pos) rest := by
  refine (answers_check_second_false hb hcall).bind fun b1 hb1 => ?_
  rw [if_neg (by decide)]
  refine (answers_atLambda hb1 hlambda).bind fun b2 hb2 => ?_
  rw [if_neg (by decide)]
  refine (answers_advance hb2 _).bind fun b3 hb3 => ?_
  exact answers_pure hb3

theorem answers_lambda (hexpr : Completes expr 0 n) (hfuel : n ≤ fuel) {ps : List String}
    {body : Expr} {word opening closing : Token} {ts bs : List Token}
    (ho : opening.lexeme = .particle .leftParen) (hps : Separated ReadsParameter ps ts)
    (hc : closing.lexeme = .particle .rightParen) (hbody : Parsed 0 body bs rest)
    (hn : ts.length + bs.length < n)
    (hb : b.ahead.tokens = word :: opening :: (ts ++ closing :: (bs ++ rest))) :
    Answers (named fuel expr lambdaWord) b (.lambda ps body word.pos) rest := by
  refine (answers_check_second_false hb (not_next_cons ho (by decide))).bind fun b1 hb1 => ?_
  rw [if_neg (by decide), atLambda, if_pos rfl]
  refine (answers_check_second_true hb1 (next_cons.2 ho)).bind fun b2 hb2 => ?_
  rw [if_pos rfl]
  refine (answers_advance hb2 _).bind fun b3 hb3 => ?_
  refine (answers_advance hb3 _).bind fun b4 hb4 => ?_
  refine (answers_delimited (by decide) (completesItem_parameter n) hps hc (by omega) (by omega)
    hb4).bind fun b5 hb5 => ?_
  refine (hexpr hbody (by omega) hb5).bind fun b6 hb6 => ?_
  exact answers_pure hb6

theorem answers_group (hexpr : Completes expr 0 n) {inner : Expr} {opening closing : Token}
    {ts : List Token} (hinner : inner.WellRead ts) (hc : closing.lexeme = .particle .rightParen)
    (hn : ts.length < n) (hb : b.ahead.tokens = opening :: (ts ++ closing :: rest)) :
    Answers (group expr) b (.group inner opening.pos) rest := by
  have hparsed : Parsed 0 inner ts (closing :: rest) :=
    ⟨hinner.1, hinner.2, Nat.zero_le _, .of_closer (by decide) (next_cons.2 hc)⟩
  refine (answers_advance hb _).bind fun b1 hb1 => ?_
  refine (hexpr hparsed hn hb1).bind fun b2 hb2 => ?_
  refine (answers_expectClosing hb2 hc _).bind fun b3 hb3 => ?_
  exact answers_pure hb3

/-- No list is taken for a range. -/
theorem not_range_of_separated {values : List Expr} {closing : Token} {ts : List Token}
    (hvalues : Separated Expr.WellRead values ts)
    (hc : closing.lexeme = .particle .rightBracket) :
    ¬ NextTwo .integer .range (ts ++ closing :: rest) := by
  cases hvalues with
  | nil =>
    intro h
    obtain ⟨v, hv⟩ := Token.answers_integer.1 h.1
    rw [hc] at hv
    cases hv
  | cons hx tail =>
    rw [List.append_assoc]
    exact ((itemEnds_of_following tail hc rest).opens (by decide) hx).range

theorem answers_list (hexpr : Completes expr 0 n) (hfuel : n ≤ fuel) {values : List Expr}
    {opening closing : Token} {ts : List Token} (hvalues : Separated Expr.WellRead values ts)
    (hc : closing.lexeme = .particle .rightBracket) (hn : ts.length < n)
    (hb : b.ahead.tokens = opening :: (ts ++ closing :: rest)) :
    Answers (aggregate fuel expr) b (.list values opening.pos) rest := by
  refine (answers_advance hb _).bind fun b1 hb1 => ?_
  refine (answers_nextTwo_false hb1 (not_range_of_separated hvalues hc)).bind fun b2 hb2 => ?_
  rw [if_neg (by decide)]
  refine (answers_delimited (by decide) (hexpr.item (by decide)) hvalues hc hn (by omega)
    hb2).bind fun b3 hb3 => ?_
  exact answers_pure hb3

theorem answers_rangeCount {t : Token} {v : Value} {m : Nat} (hb : b.ahead.tokens = t :: rest)
    (ht : t.lexeme = .number v) (hv : v.whole? = some m) : Answers rangeCount b m rest := by
  refine (answers_number hb ht _).bind fun b1 hb1 => ?_
  simp only [hv]
  exact answers_pure hb1

/-- A range, given what its step is. -/
theorem answers_range {start v : Value} {m : Nat} {step : Option Value}
    {opening first dots length closing : Token} (ss : List Token)
    (hf : first.lexeme = .number start) (hd : dots.lexeme = .particle .range)
    (hl : length.lexeme = .number v) (hv : v.whole? = some m)
    (hc : closing.lexeme = .particle .rightBracket)
    (hstep : ∀ b : Buffer, b.ahead.tokens = ss ++ closing :: rest →
      Answers rangeStep b step (closing :: rest))
    (hb : b.ahead.tokens = opening :: first :: dots :: length :: (ss ++ closing :: rest)) :
    Answers (aggregate fuel expr) b (.range start m step opening.pos) rest := by
  have htwo : NextTwo .integer .range (first :: dots :: length :: (ss ++ closing :: rest)) :=
    ⟨Token.answers_integer.2 ⟨start, hf⟩, next_cons.2 hd⟩
  refine (answers_advance hb _).bind fun b1 hb1 => ?_
  refine (answers_nextTwo_true hb1 htwo).bind fun b2 hb2 => ?_
  rw [if_pos rfl, range_eq]
  refine (answers_number hb2 hf _).bind fun b3 hb3 => ?_
  refine (answers_advance hb3 _).bind fun b4 hb4 => ?_
  refine (answers_rangeCount hb4 hl hv).bind fun b5 hb5 => ?_
  refine (hstep b5 hb5).bind fun b6 hb6 => ?_
  refine (answers_expectClosing hb6 hc _).bind fun b7 hb7 => ?_
  exact answers_pure hb7

theorem answers_rangeStep {semicolon step : Token} {v : Value}
    (hs : semicolon.lexeme = .particle .semicolon) (hv : step.lexeme = .number v)
    (hb : b.ahead.tokens = semicolon :: step :: rest) : Answers rangeStep b v.present? rest := by
  refine (answers_accept? hb hs).bind fun b1 hb1 => ?_
  refine (answers_number hb1 hv _).bind fun b2 hb2 => ?_
  exact answers_pure hb2

theorem answers_no_rangeStep {closing : Token} (hc : closing.lexeme = .particle .rightBracket)
    (hb : b.ahead.tokens = closing :: rest) : Answers rangeStep b none (closing :: rest) :=
  (answers_accept?_none hb (not_next_cons hc (by decide))).bind fun _ hb1 => answers_pure hb1

/-- The form of a tight expression is decided by its first token. -/
theorem completes_primary (hexpr : Completes expr 0 n) (hfuel : n ≤ fuel) :
    Completes (primary fuel expr) Expr.primaryRank (n + 1) := by
  intro b e ts rest he hn hb
  obtain ⟨hreads, hstrat, hrank, hstops⟩ := he
  cases hreads with
  | @number v t ht =>
    refine (answers_peek hb).bind fun b1 hb1 => ?_
    simp only [Option.map_some, ht]
    refine (answers_advance hb1 _).bind fun b2 hb2 => ?_
    exact answers_pure hb2
  | @name s t ht =>
    refine (answers_peek hb).bind fun b1 hb1 => ?_
    simp only [Option.map_some, ht]
    refine answers_name (hstops.call s (lastName_singleton.2 ht)) (fun hs => ?_) hb1
    exact hstops.lambda (lastName_singleton.2 (hs ▸ ht))
  | @group inner opening closing ts ho hinner hc =>
    rw [List.length_cons, List.length_append] at hn
    rw [List.cons_append, List.append_assoc] at hb
    refine (answers_peek hb).bind fun b1 hb1 => ?_
    simp only [Option.map_some, ho]
    cases hstrat with
    | group hs => exact answers_group hexpr ⟨hinner, hs⟩ hc (by omega) hb1
  | @call s args word opening closing ts R hw ho hargs hR hc =>
    rw [List.length_cons, List.length_cons, List.length_append] at hn
    rw [List.cons_append, List.cons_append, List.append_assoc] at hb
    refine (answers_peek hb).bind fun b1 hb1 => ?_
    simp only [Option.map_some, hw]
    cases hstrat with
    | call hs => exact answers_call hexpr hfuel ho (hargs.wellRead hR hs) hc (by omega) hb1
  | @lambda ps body word opening closing ts bs hw ho hps hc hbody =>
    rw [List.length_cons, List.length_cons, List.length_append, List.length_cons] at hn
    have hwhole : Stops Expr.primaryRank (.lambda ps body word.pos)
        ((word :: opening :: (ts ++ [closing])) ++ bs) rest := by simpa using hstops
    have hinner : Stops 0 body bs rest := hwhole.inner hbody.ne_nil (.inr rfl)
    rw [List.cons_append, List.cons_append, List.append_assoc] at hb
    refine (answers_peek hb).bind fun b1 hb1 => ?_
    simp only [Option.map_some, hw]
    cases hstrat with
    | lambda hs =>
      exact answers_lambda hexpr hfuel ho hps hc ⟨hbody, hs, Nat.zero_le _, hinner⟩ (by omega) hb1
  | @list values opening closing ts R ho hvalues hR hc =>
    rw [List.length_cons, List.length_append] at hn
    rw [List.cons_append, List.append_assoc] at hb
    refine (answers_peek hb).bind fun b1 hb1 => ?_
    simp only [Option.map_some, ho]
    cases hstrat with
    | list hs => exact answers_list hexpr hfuel (hvalues.wellRead hR hs) hc (by omega) hb1
  | range ho hf hd hl hv hc =>
    refine (answers_peek hb).bind fun b1 hb1 => ?_
    simp only [Option.map_some, ho]
    exact answers_range [] hf hd hl hv hc (fun _ hb2 => answers_no_rangeStep hc hb2) hb1
  | @rangeStep _ _ _ _ _ _ _ _ semicolon step _ ho hf hd hl hv hs hw hc =>
    refine (answers_peek hb).bind fun b1 hb1 => ?_
    simp only [Option.map_some, ho]
    exact answers_range [semicolon, step] hf hd hl hv hc
      (fun _ hb2 => answers_rangeStep hs hw hb2) hb1
  | unary => exact absurd (show Expr.primaryRank ≤ Expr.unaryRank from hrank) (by decide)
  | ternary => exact absurd (show Expr.primaryRank ≤ 0 from hrank) (by decide)
  | binary =>
    exact absurd (Nat.lt_of_le_of_lt hrank hstrat.rank_lt_of_binary) (by decide)

end Primary

/-! ## Operators -/

section Operators

variable {operand : Parser Expr} {n : Nat}

/-- What needs no operator in front does not begin with one. -/
theorem not_unary_of_rank {e : Expr} {ts : List Token} (hreads : e.Reads ts)
    (hstrat : e.Stratified) (hrank : Expr.primaryRank ≤ e.rank) (rest : List Token) :
    ∀ op ∈ unaryOperators, ¬ Next op (ts ++ rest) := by
  intro op hop hnext
  have hne : ∀ q ∈ unaryOperators, q ≠ .leftParen ∧ q ≠ .leftBracket := by decide
  cases hreads with
  | number ht | name ht =>
    rw [List.singleton_append, next_cons, ht] at hnext
    cases hnext
  | group ho _ _ => exact not_next_cons ho (hne op hop).1.symm hnext
  | call hw _ _ _ _ =>
    rw [List.cons_append, next_cons, hw] at hnext
    cases hnext
  | lambda hw _ _ _ _ =>
    rw [List.cons_append, next_cons, hw] at hnext
    cases hnext
  | list ho _ _ _ => exact not_next_cons ho (hne op hop).2.symm hnext
  | range ho _ _ _ _ _ => exact not_next_cons ho (hne op hop).2.symm hnext
  | rangeStep ho _ _ _ _ _ _ _ => exact not_next_cons ho (hne op hop).2.symm hnext
  | unary => exact absurd (show Expr.primaryRank ≤ Expr.unaryRank from hrank) (by decide)
  | ternary => exact absurd (show Expr.primaryRank ≤ 0 from hrank) (by decide)
  | binary =>
    exact absurd (Nat.lt_of_le_of_lt hrank hstrat.rank_lt_of_binary) (by decide)

theorem answers_unary (hoperand : Completes operand Expr.primaryRank n) :
    ∀ (fuel : Nat) {b : Buffer} {e : Expr} {ts rest : List Token},
      Parsed Expr.unaryRank e ts rest → ts.length < n → ts.length < fuel →
      b.ahead.tokens = ts ++ rest → Answers (unary operand fuel) b e rest := by
  intro fuel
  induction fuel with
  | zero =>
    intro b e ts rest _ _ hfuel _
    exact absurd hfuel (Nat.not_lt_zero _)
  | succ fuel ih =>
    intro b e ts rest he hn hfuel hb
    by_cases hprimary : Expr.primaryRank ≤ e.rank
    · have hops := not_unary_of_rank he.reads he.stratified hprimary rest
      refine (answers_operator?_none hb hops).bind fun b1 hb1 => ?_
      exact hoperand ⟨he.reads, he.stratified, hprimary, he.stops.mono (by decide)⟩ hn hb1
    · have hrank : e.rank = Expr.unaryRank := by
        have hge := he.rank
        unfold Expr.primaryRank at hprimary
        unfold Expr.unaryRank at hge ⊢
        omega
      obtain ⟨hreads, hstrat, -, hstops⟩ := he
      obtain ⟨op, operand, pos, rfl⟩ := hstrat.exists_unary_of_rank hrank
      cases hreads with
      | @unary _ _ t ts ht he =>
        cases hstrat with
        | unary hop hoperandRank hs =>
          have hwhole : Stops Expr.unaryRank (.unary op operand operand.pos) ([t] ++ ts) rest :=
            hstops
          have hinner : Parsed Expr.unaryRank operand ts rest :=
            ⟨he, hs, hoperandRank, hwhole.of_append he.ne_nil rfl⟩
          rw [List.length_cons] at hn hfuel
          refine (answers_operator? hb ht hop).bind fun b1 hb1 => ?_
          refine (ih hinner (by omega) (by omega) hb1).bind fun b2 hb2 => ?_
          exact answers_pure hb2

/-- The left operands of a tier are read from the innermost outwards.  So if the loop, once it
holds the operand `e`, answers `x`, then so does the tier from the start of `e`. -/
theorem answers_tier_of_chain {t : Tier} (hoperand : Completes operand (t.rank + 1) n)
    {fuel : Nat} {b : Buffer} {x : Expr} {final : List Token} (m : Nat) :
    ∀ {e : Expr} {ts rest : List Token}, ts.length ≤ m → Pending t e ts rest → ts.length < n →
      ts.length < fuel → b.ahead.tokens = ts ++ rest →
      (∀ (fuel' : Nat) (b' : Buffer), fuel ≤ fuel' + ts.length → b'.ahead.tokens = rest →
        Answers (chain t.operators operand fuel' e) b' x final) →
      Answers (tier fuel t operand) b x final := by
  induction m with
  | zero =>
    intro e ts rest hm he
    exact absurd (List.length_eq_zero_iff.1 (Nat.le_zero.1 hm)) he.reads.ne_nil
  | succ m ih =>
    intro e ts rest hm he hn hfuel hb hchain
    by_cases htight : t.rank + 1 ≤ e.rank
    · refine (hoperand ⟨he.reads, he.stratified, htight, he.stops⟩ hn hb).bind fun b1 hb1 => ?_
      exact hchain fuel b1 (by omega) hb1
    · have hrank : e.rank = t.rank := by
        have hge := he.rank
        omega
      obtain ⟨hreads, hstrat, -, hstops⟩ := he
      obtain ⟨op, l, r, pos, rfl, hop⟩ := hstrat.exists_binary_of_rank hrank
      cases hreads with
      | @binary _ _ _ sign ls rs hl hsign hr =>
        cases hstrat with
        | binary u hop' hleft hright hend hls hrs =>
          rw [Expr.rank_binary hop'] at hrank
          cases Tier.rank_injective hrank
          have hwhole : Stops (t.rank + 1) (.binary op l r l.pos) ((ls ++ [sign]) ++ rs) rest := by
            rwa [List.append_assoc]
          have hright : Parsed (t.rank + 1) r rs rest :=
            ⟨hr, hrs, hright, hwhole.of_append hr.ne_nil rfl⟩
          have hleft : Pending t l ls (sign :: (rs ++ rest)) :=
            ⟨hl, hls, hleft, .of_operator hop (next_cons.2 hsign) hend⟩
          rw [List.length_append, List.length_cons] at hm hn hfuel hchain
          rw [List.append_assoc, List.cons_append] at hb
          refine ih (by omega) hleft (by omega) (by omega) hb fun fuel' b1 hfuel' hb1 => ?_
          cases fuel' with
          | zero => omega
          | succ fuel' =>
            refine (answers_operator? hb1 hsign hop).bind fun b2 hb2 => ?_
            refine (hoperand hright (by omega) hb2).bind fun b3 hb3 => ?_
            exact hchain fuel' b3 (by omega) hb3

theorem completes_tier {t : Tier} {fuel : Nat} (hfuel : n ≤ fuel)
    (hoperand : Completes operand (t.rank + 1) n) : Completes (tier fuel t operand) t.rank n := by
  intro b e ts rest he hn hb
  have hpending : Pending t e ts rest :=
    ⟨he.reads, he.stratified, he.rank, he.stops.mono (Nat.le_succ _)⟩
  refine answers_tier_of_chain hoperand ts.length (Nat.le_refl _) hpending hn (by omega) hb
    fun fuel' b1 hfuel' hb1 => ?_
  cases fuel' with
  | zero => omega
  | succ fuel' =>
    have hops := he.stops.operator t (.inl (Nat.le_refl _))
    refine (answers_operator?_none hb1 hops).bind fun b2 hb2 => ?_
    exact answers_pure hb2

theorem completes_operation {fuel : Nat} (hfuel : n ≤ fuel)
    (hoperand : Completes operand Expr.unaryRank n) :
    Completes (operation fuel operand) Tier.equality.rank n := by
  have hfactor : Completes (tier fuel .factor operand) Tier.factor.rank n :=
    completes_tier hfuel hoperand
  have hterm : Completes (tier fuel .term (tier fuel .factor operand)) Tier.term.rank n :=
    completes_tier hfuel hfactor
  have hlogic : Completes (tier fuel .logic (tier fuel .term (tier fuel .factor operand)))
      Tier.logic.rank n := completes_tier hfuel hterm
  exact completes_tier hfuel (t := .equality) (completes_tier hfuel (t := .comparison) hlogic)

end Operators

theorem completes_ternary {condition branch : Parser Expr} {n : Nat}
    (hcondition : Completes condition Tier.equality.rank (n + 1))
    (hbranch : Completes branch 0 n) : Completes (ternary condition branch) 0 (n + 1) := by
  intro b e ts rest he hn hb
  by_cases hrank : Tier.equality.rank ≤ e.rank
  · have hparsed : Parsed Tier.equality.rank e ts rest :=
      ⟨he.reads, he.stratified, hrank, he.stops.mono (Nat.zero_le _)⟩
    refine (hcondition hparsed hn hb).bind fun b1 hb1 => ?_
    refine (answers_accept?_none hb1 (he.stops.question (.inl rfl))).bind fun b2 hb2 => ?_
    exact answers_pure hb2
  · have hone : Tier.equality.rank = 1 := rfl
    have hzero : e.rank = 0 := by omega
    obtain ⟨hreads, hstrat, -, hstops⟩ := he
    obtain ⟨c, t, other, pos, rfl⟩ := hstrat.exists_ternary_of_rank hzero
    cases hreads with
    | @ternary _ _ _ question colon cs us es hc hq ht hk he =>
      cases hstrat with
      | ternary hcrank hend hcs hts hes =>
        have hwhole : Stops 0 (.ternary c t other c.pos)
            ((cs ++ question :: (us ++ [colon])) ++ es) rest := by simpa using hstops
        have hother : Parsed 0 other es rest :=
          ⟨he, hes, Nat.zero_le _, hwhole.inner he.ne_nil (.inl rfl)⟩
        have hthen : Parsed 0 t us (colon :: (es ++ rest)) :=
          ⟨ht, hts, Nat.zero_le _, .of_closer (by decide) (next_cons.2 hk)⟩
        have hcond : Parsed Tier.equality.rank c cs (question :: (us ++ colon :: (es ++ rest))) :=
          ⟨hc, hcs, hcrank, .of_question (next_cons.2 hq) hend⟩
        simp only [List.length_append, List.length_cons] at hn
        simp only [List.append_assoc, List.cons_append] at hb
        refine (hcondition hcond (by omega) hb).bind fun b1 hb1 => ?_
        refine (answers_accept? hb1 hq).bind fun b2 hb2 => ?_
        refine (hbranch hthen (by omega) hb2).bind fun b3 hb3 => ?_
        refine (answers_accept? hb3 hk).bind fun b4 hb4 => ?_
        refine (hbranch hother (by omega) hb4).bind fun b5 hb5 => ?_
        exact answers_pure hb5

/-- The rule of whole expressions answers everything that is parsed, where its fuel exceeds
the tokens to be read. -/
theorem completes_expression (fuel : Nat) : Completes (expression fuel) 0 fuel := by
  induction fuel with
  | zero =>
    intro b e ts rest _ hn _
    exact absurd hn (Nat.not_lt_zero _)
  | succ fuel ih =>
    have hprimary := completes_primary ih (Nat.le_succ fuel)
    have hunary : Completes (unary (primary (fuel + 1) (expression fuel)) (fuel + 1))
        Expr.unaryRank (fuel + 1) :=
      fun _ _ _ _ he hn hb => answers_unary hprimary (fuel + 1) he hn hn hb
    exact completes_ternary (completes_operation (Nat.le_refl _) hunary) ih

/-! ## Statements -/

theorem answers_wholeExpression {b : Buffer} {e : Expr} {ts rest : List Token}
    (he : Parsed 0 e ts rest) (hb : b.ahead.tokens = ts ++ rest) :
    Answers wholeExpression b e rest := by
  have hweight := b.length_ahead_le_weight
  rw [hb, List.length_append] at hweight
  exact completes_expression (b.weight + 1) he (by omega) hb

/-- A statement, before tokens that go on neither with a range nor with an assignment. -/
theorem answers_bareStatement {b : Buffer} {s : Stmt} {ts rest : List Token}
    (hs : ParsedStmt s ts rest) (hrange : ¬ Next .range rest) (hassign : ¬ Next .assign rest)
    (hb : b.ahead.tokens = ts ++ rest) : Answers bareStatement b s rest := by
  obtain ⟨hreads, hstrat, hstops⟩ := hs
  cases hreads with
  | @assign s e target sign ts ht hsign he =>
    have htwo : NextTwo .identifier .assign (target :: sign :: ts ++ rest) :=
      ⟨Token.answers_identifier.2 ⟨s, ht⟩, next_cons.2 hsign⟩
    have hwhole : Stops 0 e ([target, sign] ++ ts) rest := hstops
    have hvalue : Parsed 0 e ts rest :=
      ⟨he, hstrat, Nat.zero_le _, hwhole.of_append he.ne_nil rfl⟩
    refine (answers_nextTwo_true hb htwo).bind fun b1 hb1 => ?_
    rw [if_pos rfl]
    refine (answers_advance hb1 _).bind fun b2 hb2 => ?_
    rw [ht]
    refine (answers_advance hb2 _).bind fun b3 hb3 => ?_
    refine (answers_wholeExpression hvalue hb3).bind fun b4 hb4 => ?_
    exact answers_pure hb4
  | @expression e ts he =>
    have hopens := he.opens hstrat rest hrange hassign
    refine (answers_nextTwo_false hb hopens.assign).bind fun b1 hb1 => ?_
    rw [if_neg (by decide)]
    refine (answers_wholeExpression ⟨he, hstrat, Nat.zero_le _, hstops⟩ hb1).bind fun b2 hb2 => ?_
    exact answers_pure hb2

end Grammar

/-- A program begins like an expression, or with a name. -/
theorem Program.starts {ss : List Stmt} {ts : List Token} (h : Program ss ts) :
    ∀ p, Next p ts → p ∈ openers := by
  induction h with
  | nil =>
    intro p hp
    exact absurd hp not_next_nil
  | @cons s ss ts rest head _ ih =>
    obtain ⟨hreads, hstrat, -⟩ := head
    cases hreads with
    | assign ht _ _ =>
      intro p hp
      rw [List.cons_append, next_cons, ht] at hp
      cases hp
    | expression he =>
      have hrange : ¬ Next .range rest := fun hp => absurd (ih _ hp) (by decide)
      have hassign : ¬ Next .assign rest := fun hp => absurd (ih _ hp) (by decide)
      exact (he.opens hstrat rest hrange hassign).particle

namespace Grammar

open Buffer

/-- Statement after statement, a program is answered to its end. -/
theorem statements_answer {ss : List Stmt} {ts : List Token} (h : Program ss ts) :
    ∀ (fuel : Nat) (b : Buffer), ts.length < fuel → b.ahead.tokens = ts →
      MeetsIn (fun _ => False) b.cursor.filename (statements fuel) b fun x _ _ => x = ss := by
  induction h with
  | nil =>
    intro fuel b hfuel hb
    cases fuel with
    | zero => exact absurd hfuel (Nat.not_lt_zero _)
    | succ fuel =>
      refine (meets_isEnd _ _ b).bind_look fun r b1 hb1 hr => ?_
      cases r with
      | true =>
        rw [if_pos rfl]
        exact meets_pure rfl
      | false =>
        rw [if_neg (by decide), ← List.nil_append b1.ahead.tokens, ← hb1.tokens] at hr
        exact absurd hb hr
  | @cons s ss ts rest head tail ih =>
    intro fuel b hfuel hb
    have hpos : 0 < ts.length := List.length_pos_iff.2 head.reads.ne_nil
    rw [List.length_append] at hfuel
    cases fuel with
    | zero => exact absurd hfuel (Nat.not_lt_zero _)
    | succ fuel =>
      refine (meets_isEnd _ _ b).bind_look fun r b1 hb1 hr => ?_
      have htokens : b1.ahead.tokens = ts ++ rest := hb1.tokens.symm.trans hb
      cases r with
      | true =>
        rw [if_pos rfl, htokens] at hr
        exact absurd (List.append_eq_nil_iff.1 hr.1).1 head.reads.ne_nil
      | false =>
        rw [if_neg (by decide), ← hb1.filename]
        have hrange : ¬ Next .range rest := fun hp => absurd (tail.starts _ hp) (by decide)
        have hassign : ¬ Next .assign rest := fun hp => absurd (tail.starts _ hp) (by decide)
        have hstatement := answers_bareStatement head hrange hassign htokens
        refine (meets_statement hstatement).bind fun x us b2 hb2 hx => ?_
        obtain ⟨rfl, hrest⟩ := hx
        rw [← hb2.filename]
        refine (ih fuel b2 (by omega) hrest).bind fun xs us b3 _ hxs => ?_
        subst hxs
        exact meets_pure rfl

/-- A program that lies ahead is answered, where scanning does not fail and the buffer
reaches far enough. -/
theorem program_answers {ss : List Stmt} {b : Buffer} (h : Program ss b.ahead.tokens)
    (hfailure : b.ahead.failure? = none) (hcapacity : 2 ≤ b.capacity) :
    ∃ b', program b = .ok ss b' := by
  have hfuel := Nat.lt_succ_of_le b.length_ahead_le_weight
  have hmeets := statements_answer h (b.weight + 1) b hfuel rfl
  have hrun : program b = statements (b.weight + 1) b := rfl
  unfold MeetsIn MeetsWith at hmeets
  rw [hrun]
  cases hs : statements (b.weight + 1) b with
  | ok x b' =>
    rw [hs] at hmeets
    obtain ⟨us, -, rfl⟩ := hmeets
    exact ⟨b', rfl⟩
  | error f b' =>
    rw [hs] at hmeets
    obtain ⟨us, -, hv⟩ := hmeets
    cases hv with
    | scanning hf =>
      rw [hfailure] at hf
      cases hf
    | shallow hc ho => omega
    | fault hx => exact hx.elim
    | undefined hx _ => exact hx.elim

end Grammar

/-- Parsing a source answers the program that its tokens are. -/
theorem parseProgram_of_program {c : Config} (hvalid : c.Valid) {source : String}
    {ss : List Stmt} (hfailure : (c.session source).ahead.failure? = none)
    (h : Program ss (c.session source).ahead.tokens) : parseProgram c source = .ok ss := by
  obtain ⟨b', hrun⟩ := Grammar.program_answers h hfailure hvalid
  rw [parseProgram, hrun]

end ExprFront
