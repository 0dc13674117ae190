import ExprFront.Proofs.Anchors
import ExprFront.Proofs.Beginnings

/-!
# Failures are found at the earliest point

When parsing fails, the tokens before the place of the failure are the beginning of some
program.  So no failure is found late: up to there, nothing was wrong yet.

The place of a failure is the token that a fault is about, the end of input, or the fragment
that cannot be scanned (`Blames`).  `FailsAfter Good before p b` says where a rule `p` may
fail on a buffer `b` after the tokens `before` have been read: at a place such that the
tokens before it are `Good`.  This composes along `>>=` together with the contracts of the
rules (`FailsAfter.bind`).  Each rule of rank `k` fails only where an expression of rank `k`
has begun (`Locates`), by one induction on the fuel as for soundness.

Looks ahead are where this might go wrong: a look at the second token can meet a fragment that
cannot be scanned while the first token is still to be judged.  The grammar looks that far
only after tokens that can stand where they are.

Main results: `parseProgram_fails`, and from it `parseProgram_viable`.
-/

namespace ExprFront

namespace Grammar

open Buffer

/-! ## Places of failures -/

/-- The failure is about the first token of `rest`.  If there is none, it is about the end of
input, or about the fragment after the last token. -/
inductive Blames (b : Buffer) : Failure → List Token → Prop where
  | token {x : ParseFault} {file : String} {t : Token} {rest : List Token}
      (h : x.token? = some t) : Blames b (.grammatical ⟨x, file⟩) (t :: rest)
  | finish {x : ParseFault} {file : String} (h : x.token? = none)
      (hend : b.ahead.failure? = none) : Blames b (.grammatical ⟨x, file⟩) []
  | scanning {f : Failure} (h : b.ahead.failure? = some f) : Blames b f []
  | undefined {t : Token} {rest : List Token} :
      Blames b (.breakdown .undefinedOrder) (t :: rest)

theorem Blames.of_consumes {b b' : Buffer} {ts rest : List Token} {f : Failure}
    (hb : b.Consumes ts b') (h : Blames b' f rest) : Blames b f rest := by
  cases h with
  | token hx => exact .token hx
  | finish hx hend => exact .finish hx (hb.failure ▸ hend)
  | scanning hf => exact .scanning (hb.failure ▸ hf)
  | undefined => exact .undefined

/-- If the rule fails on the buffer, after the tokens `before`, then at a place such that the
tokens before it are `Good`. -/
def FailsAfter {α : Type} (Good : List Token → Prop) (before : List Token) (p : Parser α)
    (b : Buffer) : Prop :=
  2 ≤ b.capacity → ∀ f b', p b = .error f b' →
    ∃ ts rest, before ++ b.ahead.tokens = ts ++ rest ∧ Good ts ∧ Blames b f rest

section Composition

variable {α β : Type} {Good Good' : List Token → Prop} {before : List Token} {p : Parser α}
  {f : α → Parser β} {b : Buffer}

theorem failsAfter_pure (a : α) : FailsAfter Good before (pure a) b := by
  intro _ e b₂ hrun
  cases hrun

/-- A rule that is followed by another one fails where one of them does. -/
theorem FailsAfter.bindWith {Ends : Failure → Prop}
    {R : α → List Token → List Token → Prop} (hp : FailsAfter Good before p b)
    (hmeets : MeetsWith Ends p b R)
    (hf : ∀ a ts b', b.Consumes ts b' → R a ts b'.ahead.tokens →
      FailsAfter Good (before ++ ts) (f a) b') : FailsAfter Good before (p >>= f) b := by
  intro hcapacity e b₂ hrun
  change EStateM.bind p f b = .error e b₂ at hrun
  unfold MeetsWith at hmeets
  rw [EStateM.bind] at hrun
  cases hpb : p b with
  | error e' b₁ =>
    rw [hpb] at hrun
    cases hrun
    exact hp hcapacity e b₂ hpb
  | ok a b₁ =>
    rw [hpb] at hrun hmeets
    obtain ⟨us, hconsumes, hR⟩ := hmeets
    obtain ⟨ts, rest, hsplit, hgood, hblames⟩ :=
      hf a us b₁ hconsumes hR (hconsumes.capacity ▸ hcapacity) e b₂ hrun
    refine ⟨ts, rest, ?_, hgood, hblames.of_consumes hconsumes⟩
    rw [hconsumes.tokens, ← List.append_assoc, hsplit]

theorem FailsAfter.bind {R : α → List Token → List Token → Prop}
    (hp : FailsAfter Good before p b) (hmeets : Meets p b R)
    (hf : ∀ a ts b', b.Consumes ts b' → R a ts b'.ahead.tokens →
      FailsAfter Good (before ++ ts) (f a) b') : FailsAfter Good before (p >>= f) b :=
  hp.bindWith hmeets hf

theorem FailsAfter.bind_look {R : α → List Token → Prop} (hp : FailsAfter Good before p b)
    (hmeets : Meets p b fun a ts rest => ts = [] ∧ R a rest)
    (hf : ∀ a b', b.Consumes [] b' → R a b'.ahead.tokens → FailsAfter Good before (f a) b') :
    FailsAfter Good before (p >>= f) b := by
  refine hp.bind hmeets fun a ts b' hb' h => ?_
  obtain ⟨rfl, hR⟩ := h
  rw [List.append_nil]
  exact hf a b' hb' hR

/-- What is made of an answer does not matter. -/
theorem FailsAfter.map {g : α → β} (hp : FailsAfter Good before p b) :
    FailsAfter Good before (do return g (← p)) b := by
  intro hcapacity e b₂ hrun
  change EStateM.bind p (fun a => pure (g a)) b = .error e b₂ at hrun
  rw [EStateM.bind] at hrun
  cases hpb : p b with
  | error e' b₁ =>
    rw [hpb] at hrun
    cases hrun
    exact hp hcapacity e b₂ hpb
  | ok a b₁ =>
    rw [hpb] at hrun
    cases hrun

/-- A rule inside another one. -/
theorem FailsAfter.within (hp : FailsAfter Good' [] p b)
    (hgood : ∀ ts rest, b.ahead.tokens = ts ++ rest → Good' ts → Good (before ++ ts)) :
    FailsAfter Good before p b := by
  intro hcapacity e b₂ hrun
  obtain ⟨ts, rest, hsplit, hts, hblames⟩ := hp hcapacity e b₂ hrun
  rw [List.nil_append] at hsplit
  refine ⟨before ++ ts, rest, ?_, hgood ts rest hsplit hts, hblames⟩
  rw [hsplit, List.append_assoc]

theorem FailsAfter.mono (hp : FailsAfter Good' [] p b) (hgood : ∀ ts, Good' ts → Good ts) :
    FailsAfter Good [] p b :=
  hp.within fun ts _ _ hts => hgood ts hts

/-! ## Faults -/

/-- A fault about the token that was just taken. -/
theorem fails_about_last {x : ParseFault} {t : Token} (hx : x.token? = some t)
    (hgood : Good before) : FailsAfter Good (before ++ [t]) (fail x : Parser α) b := by
  intro _ e b₂ hrun
  cases hrun
  exact ⟨before, t :: b.ahead.tokens, by simp, hgood, .token hx⟩

/-- A fault about the token that was just looked at, or about the end of input. -/
theorem fails_about_next {x : ParseFault} (hx : x.token? = b.ahead.tokens.head?)
    (hend : b.ahead.tokens = [] → b.ahead.failure? = none) (hgood : Good before) :
    FailsAfter Good before (fail x : Parser α) b := by
  intro _ e b₂ hrun
  cases hrun
  refine ⟨before, b.ahead.tokens, rfl, hgood, ?_⟩
  cases htokens : b.ahead.tokens with
  | nil =>
    rw [htokens] at hx
    exact .finish hx (hend htokens)
  | cons t us =>
    rw [htokens] at hx
    exact .token hx

end Composition

/-! ## Looks and single tokens -/

section Tokens

variable {Good : List Token → Prop} {before : List Token} {b : Buffer}

theorem fails_peek {offset : Int} (h0 : 0 ≤ offset) (h1 : offset ≤ 1)
    (hgood : b.ahead.tokens.length ≤ offset → Good (before ++ b.ahead.tokens)) :
    FailsAfter Good before (peek offset) b := by
  intro hcapacity e b₂ hrun
  have hpeek := b.peek_ahead h0
  rw [hrun] at hpeek
  rcases hpeek.2 with ⟨hf, hlength⟩ | ⟨hc, -⟩
  · exact ⟨before ++ b.ahead.tokens, [], by simp, hgood hlength, .scanning hf⟩
  · omega

theorem fails_peek_first (hgood : Good before) : FailsAfter Good before (peek 0) b := by
  refine fails_peek (Int.le_refl 0) (by decide) fun hlength => ?_
  have hnil : b.ahead.tokens = [] := List.length_eq_zero_iff.1 (by omega)
  rwa [hnil, List.append_nil]

/-- A look finds nothing only where the input ends without a failure. -/
theorem meets_peek_end (b : Buffer) :
    Meets (peek 0) b fun r ts rest =>
      ts = [] ∧ r = rest.head? ∧ (rest = [] → b.ahead.failure? = none) := by
  have hpeek := b.peek_ahead (Int.le_refl 0)
  unfold Meets MeetsIn MeetsWith
  split
  · next r b' hp =>
    rw [hp] at hpeek
    obtain ⟨hsame, hr, hend⟩ := hpeek
    have hfirst : r = b'.ahead.tokens.head? := by
      rw [hr, hsame.tokens, List.head?_eq_getElem?]
      rfl
    refine ⟨[], hsame, rfl, hfirst, fun hnil => hend ?_⟩
    rw [hfirst, hnil]
    rfl
  · next f b' hp =>
    rw [hp] at hpeek
    exact ⟨[], hpeek.1, .of_unreadable hpeek.2 (by decide)⟩

theorem fails_check (p : Particle) (hgood : Good before) : FailsAfter Good before (check p 0) b :=
  (fails_peek_first hgood).map

theorem fails_check_second (p : Particle)
    (hgood : b.ahead.tokens.length ≤ 1 → Good (before ++ b.ahead.tokens)) :
    FailsAfter Good before (check p 1) b :=
  (fails_peek (by decide) (Int.le_refl 1) fun hlength => hgood (by omega)).map

/-- The second token is looked at only after a first one of the kind. -/
theorem fails_nextTwo (k : Kind) (p : Particle) (hgood : Good before)
    (hfirst : ∀ t, b.ahead.tokens = [t] → t.answers k = true → Good (before ++ [t])) :
    FailsAfter Good before (do if ← hasKind k 0 then check p 1 else return false) b := by
  have hkind : FailsAfter Good before (hasKind k 0) b := (fails_peek_first hgood).map
  refine hkind.bind_look (meets_hasKind b k (Int.le_refl 0) (by decide)) fun r b1 hb1 hr => ?_
  have htokens : b1.ahead.tokens = b.ahead.tokens := hb1.tokens.symm
  split
  · next hk =>
    refine fails_check_second p fun hlength => ?_
    rw [hr, htokens] at hk
    rw [htokens] at hlength ⊢
    match hts : b.ahead.tokens with
    | [] =>
      rw [hts] at hk
      cases hk
    | [t] =>
      rw [hts] at hk
      exact hfirst t hts (by simpa using hk)
    | t :: u :: us =>
      rw [hts] at hlength
      simp at hlength
  · exact failsAfter_pure false

theorem fails_pop (hgood : Good before) : FailsAfter Good before pop b := by
  intro hcapacity e b₂ hrun
  have hpop := b.pop_ahead
  rw [hrun] at hpop
  rcases hpop.2 with ⟨hf, hlength⟩ | ⟨hc, -⟩
  · have hnil : b.ahead.tokens = [] := List.length_eq_zero_iff.1 (by omega)
    exact ⟨before, [], by rw [hnil], hgood, .scanning hf⟩
  · omega

theorem fails_advance (expected : String) (hgood : Good before) :
    FailsAfter Good before (advance expected) b := by
  refine (fails_pop hgood).bind (meets_pop b) fun r ts b1 hb1 hr => ?_
  rcases hr with ⟨t, rfl, rfl⟩ | ⟨rfl, rfl, hnil, hend⟩
  · exact failsAfter_pure t
  · have htokens : b1.ahead.tokens = [] := hb1.tokens.symm.trans hnil
    rw [List.append_nil]
    exact fails_about_next (x := .unexpectedEnd expected b1.cursor.pos) (by rw [htokens]; rfl)
      (fun _ => hb1.failure.trans hend) hgood

theorem fails_isEnd (hgood : Good before) : FailsAfter Good before isEnd b := by
  intro hcapacity e b₂ hrun
  have hend := b.isEnd_ahead
  rw [hrun] at hend
  rcases hend.2 with ⟨hf, hlength⟩ | ⟨hc, -⟩
  · have hnil : b.ahead.tokens = [] := List.length_eq_zero_iff.1 (by omega)
    exact ⟨before, [], by rw [hnil], hgood, .scanning hf⟩
  · omega

/-- A token that is known to come next is taken; failures come after it. -/
theorem fails_advance_bind {α : Type} {t : Token} {us : List Token} {f : Token → Parser α}
    (h : b.ahead.tokens = t :: us) (expected : String)
    (hf : ∀ b', b'.ahead.tokens = us → FailsAfter Good (before ++ [t]) (f t) b') :
    FailsAfter Good before (advance expected >>= f) b := by
  have hpop : FailsAfter Good before pop b := by
    intro hcapacity e b₂ hrun
    have hpop := b.pop_ahead
    rw [hrun] at hpop
    rcases hpop.2 with ⟨-, hlength⟩ | ⟨hc, -⟩
    · rw [h, List.length_cons] at hlength
      omega
    · omega
  have hadvance : FailsAfter Good before (advance expected) b := by
    refine hpop.bind (meets_pop b) fun r ts b1 _ hr => ?_
    rcases hr with ⟨u, rfl, rfl⟩ | ⟨rfl, rfl, hnil, -⟩
    · exact failsAfter_pure u
    · rw [h] at hnil
      cases hnil
  refine hadvance.bind (meets_advance_cons h expected) fun u ts b1 _ hu => ?_
  obtain ⟨rfl, rfl, h1⟩ := hu
  exact hf b1 h1

theorem fails_accept? (p : Particle) (hgood : Good before) :
    FailsAfter Good before (accept? p) b := by
  refine (fails_check p hgood).bind_look (meets_check b p) fun r b1 _ _ => ?_
  split
  · exact (fails_advance _ hgood).map
  · exact failsAfter_pure none

theorem fails_operator? (ops : List Particle) (hgood : Good before) :
    FailsAfter Good before (operator? ops) b := by
  refine (fails_peek_first hgood).bind_look (meets_peek_first b) fun r b1 _ _ => ?_
  split
  · split
    · exact (fails_advance _ hgood).map
    · exact failsAfter_pure none
  · exact failsAfter_pure none

theorem fails_expectClosing (p : Particle) (message : String) (hgood : Good before) :
    FailsAfter Good before (expectClosing p message) b := by
  refine (fails_accept? p hgood).bind (meets_accept? b p) fun r ts b1 hb1 hr => ?_
  rcases hr with ⟨t, rfl, rfl, -⟩ | ⟨rfl, rfl, -⟩
  · exact failsAfter_pure ()
  · rw [List.append_nil]
    refine (fails_pop hgood).bind (meets_pop b1) fun r ts b2 hb2 hr => ?_
    rcases hr with ⟨t, rfl, rfl⟩ | ⟨rfl, rfl, hnil, hend⟩
    · exact fails_about_last rfl hgood
    · have htokens : b2.ahead.tokens = [] := hb2.tokens.symm.trans hnil
      rw [List.append_nil]
      exact fails_about_next (x := .unclosed message (b2.lastPos.getD b2.cursor.pos) none)
        (by rw [htokens]; rfl) (fun _ => hb2.failure.trans hend) hgood

end Tokens

/-! ## Items between delimiters -/

section Items

variable {α : Type} {item : Parser α} {R : α → List Token → Prop} {convert : Converter} {n : Nat}
  {closing : Particle}

theorem fails_dueItem {Good : List Token → Prop} {before : List Token} {b : Buffer}
    (hgood : Good before) (hitem : ∀ b', b.Consumes [] b' → FailsAfter Good before item b') :
    FailsAfter Good before (dueItem item) b := by
  refine (fails_accept? .comma hgood).bind (meets_accept? b .comma) fun r ts b1 hb1 hr => ?_
  rcases hr with ⟨comma, rfl, rfl, -⟩ | ⟨rfl, rfl, -⟩
  · exact fails_about_last rfl hgood
  · rw [List.append_nil]
    exact hitem b1 hb1

variable
  (hitem : ∀ b : Buffer, b.ahead.tokens.length < n → Meets item b fun x ts _ => R x ts)
  (hfails : ∀ b : Buffer, b.ahead.tokens.length < n →
    FailsAfter (Extends convert (IsItem R)) [] item b)
  (hnil : Extends convert (IsItem R) [])

include hitem hfails hnil

/-- The items after those in `ts`. -/
theorem fails_moreItems (hclosing : closing ∈ listClosers) :
    ∀ (fuel : Nat) (b : Buffer) (xs : List α) (ts : List Token), b.ahead.tokens.length < n →
      b.ahead.tokens.length < fuel → Separated R xs ts → xs ≠ [] →
      FailsAfter (Extends convert (IsItems R closing)) ts (moreItems closing item fuel) b := by
  intro fuel
  induction fuel with
  | zero =>
    intro b xs ts _ hfuel
    exact absurd hfuel (Nat.not_lt_zero _)
  | succ fuel ih =>
    intro b xs ts hn hfuel hxs hne
    have hclose : Extends convert (IsItems R closing) ts := hxs.extends_close
    rw [moreItems]
    refine (fails_accept? closing hclose).bind (meets_accept? b closing) fun r us b1 hb1 hr => ?_
    rcases hr with ⟨c, rfl, rfl, -⟩ | ⟨rfl, rfl, -⟩
    · exact failsAfter_pure []
    have hlen1 := hb1.length_eq
    rw [List.append_nil]
    refine (fails_accept? .comma hclose).bind (meets_accept? b1 .comma) fun r us b2 hb2 hr => ?_
    have hlen2 := hb2.length_eq
    rcases hr with ⟨comma, rfl, rfl, hcomma⟩ | ⟨rfl, rfl, -⟩
    · have hdue : Extends convert (IsItems R closing) (ts ++ [comma]) :=
        hxs.extends_next hne hcomma hnil
      refine (fails_check closing hdue).bind_look (meets_check b2 closing) fun r b3 hb3 _ => ?_
      have hlen3 := hb3.length_eq
      simp only [List.length_nil, List.length_singleton] at hlen1 hlen2 hlen3
      split
      · -- The comma itself is to blame: in its place the list could have been closed.
        exact fails_about_last rfl hclose
      · have hshort : ∀ b4, b3.Consumes [] b4 → b4.ahead.tokens.length < n := by
          intro b4 hb4
          have hlen4 := hb4.length_eq
          rw [List.length_nil] at hlen4
          omega
        have hnext : FailsAfter (Extends convert (IsItems R closing)) (ts ++ [comma])
            (dueItem item) b3 := by
          refine fails_dueItem hdue fun b4 hb4 => (hfails b4 (hshort b4 hb4)).within ?_
          intro vs _ _ hvs
          rw [← List.append_cons]
          exact hxs.extends_next hne hcomma hvs
        refine hnext.bind (meets_dueItem fun b4 hb4 => hitem b4 (hshort b4 hb4))
          fun x vs b5 hb5 hx => ?_
        have hlen5 := hb5.length_eq
        rw [← List.append_cons]
        exact (ih b5 _ _ (by omega) (by omega) (hxs.append_item hne hcomma hx) (by simp)).map
    · rw [List.append_nil]
      refine (fails_advance _ hclose).bind
        (meets_advance b2 (.inl (wanted_of_listCloser hclosing))) fun found us b3 _ hfound => ?_
      subst hfound
      exact fails_about_last rfl hclose

theorem fails_delimited (hclosing : closing ∈ listClosers) {fuel : Nat} {b : Buffer}
    (hn : b.ahead.tokens.length < n) (hfuel : b.ahead.tokens.length < fuel) :
    FailsAfter (Extends convert (IsItems R closing)) [] (delimited fuel closing item) b := by
  have hempty : Extends convert (IsItems R closing) [] := Separated.nil.extends_close
  refine (fails_accept? closing hempty).bind (meets_accept? b closing) fun r us b1 hb1 hr => ?_
  rcases hr with ⟨c, rfl, rfl, -⟩ | ⟨rfl, rfl, -⟩
  · exact failsAfter_pure []
  have hlen1 := hb1.length_eq
  rw [List.length_nil] at hlen1
  have hshort : ∀ b2, b1.Consumes [] b2 → b2.ahead.tokens.length < n := by
    intro b2 hb2
    have hlen2 := hb2.length_eq
    rw [List.length_nil] at hlen2
    omega
  have hfirst : FailsAfter (Extends convert (IsItems R closing)) [] (dueItem item) b1 :=
    fails_dueItem hempty fun b2 hb2 => (hfails b2 (hshort b2 hb2)).mono fun _ => extends_first
  refine hfirst.bind (meets_dueItem fun b2 hb2 => hitem b2 (hshort b2 hb2)) fun x vs b3 hb3 hx => ?_
  have hlen3 := hb3.length_eq
  exact (fails_moreItems hitem hfails hnil hclosing fuel b3 [x] vs (by omega) (by omega)
    (separated_singleton hx) (by simp)).map

end Items

theorem fails_parameter (convert : Converter) (b : Buffer) :
    FailsAfter (Extends convert (IsItem ReadsParameter)) [] parameter b := by
  refine (fails_advance _ extends_parameter_nil).bind (meets_advance b (.inl (by decide)))
    fun t ts b1 _ ht => ?_
  subst ht
  split
  · next s _ => exact failsAfter_pure s
  · exact fails_about_last rfl extends_parameter_nil

/-! ## Ranges -/

section Ranges

variable {Good : List Token → Prop} {before : List Token} {b : Buffer}

theorem fails_number {expected : String} (hend : expected ∈ wantedAtEnd) (hgood : Good before) :
    FailsAfter Good before (number expected) b := by
  refine (fails_advance _ hgood).bind (meets_advance b (.inl hend)) fun t ts b1 _ ht => ?_
  subst ht
  split
  · next v _ => exact failsAfter_pure (v, t)
  · exact fails_about_last rfl hgood

theorem fails_rangeCount (hgood : Good before) : FailsAfter Good before rangeCount b := by
  refine (fails_number (by decide) hgood).bind (meets_number b (by decide) (by decide))
    fun r ts b1 _ hr => ?_
  obtain ⟨v, t⟩ := r
  obtain ⟨rfl, -⟩ := hr
  cases hn : v.whole? with
  | some n =>
    simp only [hn]
    exact failsAfter_pure n
  | none =>
    simp only [hn, lengthFailure]
    split
    · intro _ e b₂ hrun
      cases hrun
      exact ⟨before, t :: b1.ahead.tokens, by simp, hgood, .undefined⟩
    · exact fails_about_last rfl hgood

theorem fails_rangeStep (hgood : Good before)
    (hstep : ∀ t : Token, t.lexeme = .particle .semicolon → Good (before ++ [t])) :
    FailsAfter Good before rangeStep b := by
  refine (fails_accept? .semicolon hgood).bind (meets_accept? b .semicolon)
    fun r ts b1 _ hr => ?_
  rcases hr with ⟨s, rfl, rfl, hs⟩ | ⟨rfl, rfl, -⟩
  · exact (fails_number (by decide) (hstep s hs)).map
  · exact failsAfter_pure none

end Ranges

/-! ## The tightest forms -/

/-- The rule fails only where an expression of rank `k` has begun, on buffers with fewer than
`n` tokens ahead. -/
def Locates (convert : Converter) (p : Parser Expr) (k n : Nat) : Prop :=
  ∀ b : Buffer, b.ahead.tokens.length < n → FailsAfter (Begun convert k) [] p b

section Primary

variable {convert : Converter} {expr : Parser Expr} {n fuel : Nat} {b : Buffer}

/-- A range after its opening bracket. -/
theorem fails_range (hzero : convert.ReadsZero) {opening first dots : Token} {us : List Token}
    {v : Value} (ho : opening.lexeme = .particle .leftBracket)
    (h : b.ahead.tokens = first :: dots :: us) (hf : first.lexeme = .number v)
    (hd : dots.lexeme = .particle .range) :
    FailsAfter (Begun convert Expr.primaryRank) [opening] (range opening.pos) b := by
  have hlength : Begun convert Expr.primaryRank [opening, first, dots] :=
    .rangeLength ho hf hd hzero
  rw [range_eq]
  have hfirst : FailsAfter (Begun convert Expr.primaryRank) [opening]
      (number "a range start") b := by
    refine fails_advance_bind h _ fun b1 _ => ?_
    rw [hf]
    exact failsAfter_pure (v, first)
  refine hfirst.bind (meets_number_cons h hf _) fun r ts b1 _ hr => ?_
  obtain ⟨rfl, rfl, h1⟩ := hr
  refine fails_advance_bind h1 _ fun b2 _ => ?_
  -- Only the answers matter here, so the contract may allow every failure.
  have hcount : MeetsWith (fun _ => True) rangeCount b2 _ :=
    meets_rangeCount (fun _ _ => trivial) fun _ _ _ _ _ => trivial
  refine (fails_rangeCount hlength).bindWith hcount fun m ts b3 _ hm => ?_
  obtain ⟨length, w, rfl, hl, hw⟩ := hm
  have hend : Begun convert Expr.primaryRank [opening, first, dots, length] :=
    .rangeEnd ho hf hd hl hw
  refine (fails_rangeStep hend fun t ht => .rangeStep ho hf hd hzero hl hw ht).bind
    (meets_rangeStep b3) fun step ts b4 _ hstep => ?_
  refine FailsAfter.map ?_
  rcases hstep with ⟨-, rfl⟩ | ⟨semicolon, t, x, -, rfl, hs, hx⟩
  · exact fails_expectClosing _ _ hend
  · exact fails_expectClosing _ _ (.rangeStepEnd ho hf hd hl hw hs hx)

variable (hsound : Sound expr 0 n) (hfails : Locates convert expr 0 n)

include hfails

theorem Locates.item (b : Buffer) (hb : b.ahead.tokens.length < n) :
    FailsAfter (Extends convert (IsItem Expr.WellRead)) [] expr b :=
  (hfails b hb).mono fun _ hts => hts.item

theorem fails_lambda (hfuel : n ≤ fuel) {word opening : Token} {us : List Token}
    (h : b.ahead.tokens = word :: opening :: us) (hn : us.length < n)
    (hw : word.lexeme = .name lambdaWord) (ho : opening.lexeme = .particle .leftParen) :
    FailsAfter (Begun convert Expr.primaryRank) [] (lambda fuel expr) b := by
  refine fails_advance_bind h _ fun b1 h1 => ?_
  refine fails_advance_bind h1 _ fun b2 h2 => ?_
  rw [← h2] at hn
  have hparameters : FailsAfter (Begun convert Expr.primaryRank) [word, opening]
      (delimited fuel .rightParen parameter) b2 := by
    refine (fails_delimited (fun b _ => meets_parameter b) (fun b _ => fails_parameter convert b)
      extends_parameter_nil (by decide) hn (Nat.lt_of_lt_of_le hn hfuel)).within ?_
    exact fun ts _ _ hts => .parameters hw ho hts
  refine hparameters.bind (meets_delimited (by decide) (fun b _ => meets_parameter b) hn
    (Nat.lt_of_lt_of_le hn hfuel)) fun ps ts b3 hb3 hps => ?_
  obtain ⟨ts, closing, rfl, hc, hps⟩ := hps
  have hlen := hb3.length_eq
  refine ((hfails b3 (by omega)).within fun bs _ _ hbs => ?_).map
  simpa using hbs.body hw ho hps hc

include hsound

theorem fails_group {opening : Token} {us : List Token} (h : b.ahead.tokens = opening :: us)
    (hn : us.length < n) (ho : opening.lexeme = .particle .leftParen) :
    FailsAfter (Begun convert Expr.primaryRank) [] (group expr) b := by
  refine fails_advance_bind h _ fun b1 h1 => ?_
  rw [← h1] at hn
  have hinner : FailsAfter (Begun convert Expr.primaryRank) [opening] expr b1 :=
    (hfails b1 hn).within fun ts _ _ hts => hts.group ho
  refine hinner.bind (hsound b1 hn) fun e ts b2 _ he => ?_
  exact (fails_expectClosing _ _ (Begun.group ho (.of_parsed he))).map

theorem fails_call (hfuel : n ≤ fuel) {s : String} {word opening : Token} {us : List Token}
    (h : b.ahead.tokens = word :: opening :: us) (hn : us.length < n)
    (hw : word.lexeme = .name s) (ho : opening.lexeme = .particle .leftBrace) :
    FailsAfter (Begun convert Expr.primaryRank) [] (call fuel expr s) b := by
  refine fails_advance_bind h _ fun b1 h1 => ?_
  refine fails_advance_bind h1 _ fun b2 h2 => ?_
  rw [← h2] at hn
  have hnil : Begun convert 0 [] := .nil (Nat.zero_le _)
  refine ((fails_delimited hsound.item (Locates.item hfails) hnil.item (by decide) hn
    (Nat.lt_of_lt_of_le hn hfuel)).within fun ts _ _ hts => ?_).map
  exact .call hw ho hts

/-- A name is committed to a call or a function only when the second token is seen, and until
then it can stand alone. -/
theorem fails_named (hfuel : n ≤ fuel) {s : String} {word : Token} {us : List Token}
    (h : b.ahead.tokens = word :: us) (hn : us.length ≤ n) (hw : word.lexeme = .name s) :
    FailsAfter (Begun convert Expr.primaryRank) [] (named fuel expr s) b := by
  have halone : ∀ b' : Buffer, b'.ahead.tokens = word :: us → b'.ahead.tokens.length ≤ 1 →
      Begun convert Expr.primaryRank ([] ++ b'.ahead.tokens) := by
    intro b' hb' hlength
    rw [hb', List.length_cons] at hlength
    have hnil : us = [] := List.length_eq_zero_iff.1 (by omega)
    rw [hb', hnil]
    exact .of_whole (isExpr_name hw)
  refine (fails_check_second .leftBrace (halone b h)).bind_look (meets_check_second b .leftBrace)
    fun r b1 hb1 hr => ?_
  have h1 : b1.ahead.tokens = word :: us := hb1.tokens.symm.trans h
  rw [h1, List.tail_cons] at hr
  by_cases hbrace : r = true
  · obtain ⟨opening, us, rfl, ho⟩ := exists_of_next (hr.1 hbrace)
    rw [if_pos hbrace]
    exact fails_call hsound hfails hfuel h1 hn hw ho
  rw [if_neg hbrace]
  have hat : FailsAfter (Begun convert Expr.primaryRank) [] (atLambda s) b1 := by
    unfold atLambda
    split
    · exact fails_check_second .leftParen (halone b1 h1)
    · exact failsAfter_pure false
  refine hat.bind_look (meets_atLambda h1 s) fun r b2 hb2 hr => ?_
  by_cases hlambda : r = true
  · obtain ⟨rfl, hnext⟩ := hr.2.1 hlambda
    obtain ⟨opening, us, rfl, ho⟩ := exists_of_next hnext
    rw [if_pos hlambda]
    exact fails_lambda hfails hfuel hr.1 hn hw ho
  · rw [if_neg hlambda]
    exact fails_advance_bind hr.1 _ fun b3 _ => failsAfter_pure _

/-- A bracket is committed to a range only when the second token after it is seen, and until
then the number can be the first of a list. -/
theorem fails_aggregate (hzero : convert.ReadsZero) (hfuel : n ≤ fuel) {opening : Token}
    {us : List Token} (h : b.ahead.tokens = opening :: us) (hn : us.length < n)
    (ho : opening.lexeme = .particle .leftBracket) :
    FailsAfter (Begun convert Expr.primaryRank) [] (aggregate fuel expr) b := by
  have hempty : Begun convert Expr.primaryRank [opening] := .list ho Separated.nil.extends_close
  refine fails_advance_bind h _ fun b1 h1 => ?_
  have hlook : FailsAfter (Begun convert Expr.primaryRank) [opening] atRange b1 := by
    refine fails_nextTwo .integer .range hempty fun t _ ht => ?_
    obtain ⟨v, hv⟩ := Token.answers_integer.1 ht
    have hnumber : Begun convert 0 [t] :=
      .of_whole ⟨.number v t.pos, ⟨.number hv, .number v t.pos⟩, Nat.zero_le _⟩
    exact .list ho (extends_first hnumber.item)
  refine hlook.bind_look (meets_nextTwo b1 .integer .range) fun r b2 hb2 hr => ?_
  have h2 : b2.ahead.tokens = us := hb2.tokens.symm.trans h1
  by_cases hrange : r = true
  · obtain ⟨first, dots, ws, hws, hf, hd⟩ := exists_of_nextTwo (hr.1 hrange)
    obtain ⟨v, hf⟩ := Token.answers_integer.1 hf
    rw [if_pos hrange]
    exact fails_range hzero ho hws hf hd
  · rw [if_neg hrange]
    rw [← h2] at hn
    have hnil : Begun convert 0 [] := .nil (Nat.zero_le _)
    refine ((fails_delimited hsound.item (Locates.item hfails) hnil.item (by decide) hn
      (Nat.lt_of_lt_of_le hn hfuel)).within fun ts _ _ hts => ?_).map
    exact .list ho hts

theorem locates_primary (hzero : convert.ReadsZero) (hfuel : n ≤ fuel) :
    Locates convert (primary fuel expr) Expr.primaryRank (n + 1) := by
  intro b hb
  have hnil : Begun convert Expr.primaryRank [] := .nil (Nat.le_refl _)
  refine (fails_peek_first hnil).bind_look (meets_peek_end b) fun next b1 hb1 hnext => ?_
  obtain ⟨rfl, hend⟩ := hnext
  have hinvalid : FailsAfter (Begun convert Expr.primaryRank) []
      (do fail (.invalidExpression invalidExpressionMessage (← cursorPos) b1.ahead.tokens.head?) :
        Parser Expr) b1 :=
    fails_about_next (x := .invalidExpression invalidExpressionMessage b1.cursor.pos
      b1.ahead.tokens.head?) rfl (fun h => hb1.failure.trans (hend h)) hnil
  have hlen := hb1.length_eq
  cases htokens : b1.ahead.tokens with
  | nil =>
    rw [htokens] at hinvalid
    exact hinvalid
  | cons t us =>
    rw [htokens, List.length_cons] at hlen
    rw [htokens] at hinvalid
    simp only [List.head?_cons, Option.map_some]
    split
    · exact fails_advance_bind htokens _ fun b2 _ => failsAfter_pure _
    · next s hs => exact fails_named hsound hfails hfuel htokens (by omega) (Option.some.inj hs)
    · next hp => exact fails_group hsound hfails htokens (by omega) (Option.some.inj hp)
    · next hp =>
      exact fails_aggregate hsound hfails hzero hfuel htokens (by omega) (Option.some.inj hp)
    · exact hinvalid

end Primary

/-! ## Operators -/

section Operators

variable {convert : Converter} {operand : Parser Expr} {n : Nat}

theorem fails_unary (hfails : Locates convert operand Expr.primaryRank n) :
    ∀ (fuel : Nat) (b : Buffer), b.ahead.tokens.length < n → b.ahead.tokens.length < fuel →
      FailsAfter (Begun convert Expr.unaryRank) [] (unary operand fuel) b := by
  intro fuel
  induction fuel with
  | zero =>
    intro b _ hfuel
    exact absurd hfuel (Nat.not_lt_zero _)
  | succ fuel ih =>
    intro b hn hfuel
    have hnil : Begun convert Expr.unaryRank [] := .nil (by decide)
    refine (fails_operator? unaryOperators hnil).bind (meets_operator? b unaryOperators)
      fun r ts b1 hb1 hr => ?_
    have hlen := hb1.length_eq
    rcases hr with ⟨t, op, rfl, rfl, ht, hop⟩ | ⟨rfl, rfl, -⟩
    · rw [List.length_singleton] at hlen
      exact ((ih b1 (by omega) (by omega)).within fun us _ _ hus => hus.unary ht hop).map
    · rw [List.length_nil] at hlen
      exact (hfails b1 (by omega)).mono fun us hus => hus.weaken (by decide)

/-- The loop of a tier, after the left operand in `ls`. -/
theorem fails_chain {t : Tier} (hsound : Sound operand (t.rank + 1) n)
    (hfails : Locates convert operand (t.rank + 1) n) :
    ∀ (fuel : Nat) (b : Buffer) (left : Expr) (ls : List Token), b.ahead.tokens.length < n →
      b.ahead.tokens.length < fuel → Pending t left ls b.ahead.tokens →
      FailsAfter (Begun convert t.rank) ls (chain t.operators operand fuel left) b := by
  intro fuel
  induction fuel with
  | zero =>
    intro b left ls _ hfuel _
    exact absurd hfuel (Nat.not_lt_zero _)
  | succ fuel ih =>
    intro b left ls hn hfuel hleft
    have hwhole : Begun convert t.rank ls :=
      .of_whole ⟨left, ⟨hleft.reads, hleft.stratified⟩, hleft.rank⟩
    refine (fails_operator? t.operators hwhole).bind (meets_operator? b t.operators)
      fun r ts b1 hb1 hr => ?_
    have hlen1 := hb1.length_eq
    rcases hr with ⟨sign, op, rfl, rfl, hsign, hop⟩ | ⟨rfl, rfl, -⟩
    · rw [List.length_singleton] at hlen1
      have hb : b.ahead.tokens = sign :: b1.ahead.tokens := hb1.tokens
      have hright : FailsAfter (Begun convert t.rank) (ls ++ [sign]) operand b1 := by
        refine (hfails b1 (by omega)).within fun us _ _ hus => ?_
        rw [← List.append_cons]
        exact hus.binary (hb ▸ hleft) hsign hop
      refine hright.bind (hsound b1 (by omega)) fun right rs b2 hb2 hr => ?_
      have hlen2 := hb2.length_eq
      rw [hb, hb2.tokens] at hleft
      rw [← List.append_cons]
      exact ih b2 _ _ (by omega) (by omega) (hleft.binary hsign hop hr)
    · exact failsAfter_pure left

theorem locates_tier {t : Tier} {fuel : Nat} (hfuel : n ≤ fuel)
    (hsound : Sound operand (t.rank + 1) n) (hfails : Locates convert operand (t.rank + 1) n) :
    Locates convert (tier fuel t operand) t.rank n := by
  intro b hb
  have hleft : FailsAfter (Begun convert t.rank) [] operand b :=
    (hfails b hb).mono fun ts hts => hts.weaken (Nat.le_succ _)
  refine hleft.bind (hsound b hb) fun left ls b1 hb1 h => ?_
  have hlen := hb1.length_eq
  exact fails_chain hsound hfails fuel b1 left ls (by omega) (by omega) (.of_parsed h)

theorem locates_operation {fuel : Nat} (hfuel : n ≤ fuel)
    (hsound : Sound operand Expr.unaryRank n) (hfails : Locates convert operand Expr.unaryRank n) :
    Locates convert (operation fuel operand) Tier.equality.rank n := by
  have hfactor : Sound (tier fuel .factor operand) Tier.factor.rank n := sound_tier hfuel hsound
  have hterm : Sound (tier fuel .term (tier fuel .factor operand)) Tier.term.rank n :=
    sound_tier hfuel hfactor
  have hlogic : Sound (tier fuel .logic (tier fuel .term (tier fuel .factor operand)))
      Tier.logic.rank n := sound_tier hfuel hterm
  have hcomparison := sound_tier hfuel (t := .comparison) hlogic
  exact locates_tier hfuel (t := .equality) hcomparison <|
    locates_tier hfuel (t := .comparison) hlogic <|
    locates_tier hfuel (t := .logic) hterm <| locates_tier hfuel (t := .term) hfactor <|
    locates_tier hfuel (t := .factor) hsound hfails

end Operators

/-- A choice, or its condition alone. -/
theorem locates_ternary {convert : Converter} {condition branch : Parser Expr} {n : Nat}
    (hsound : Sound condition Tier.equality.rank (n + 1))
    (hfails : Locates convert condition Tier.equality.rank (n + 1))
    (hsound' : Sound branch 0 n) (hfails' : Locates convert branch 0 n) :
    Locates convert (ternary condition branch) 0 (n + 1) := by
  intro b hb
  have hcondition : FailsAfter (Begun convert 0) [] condition b :=
    (hfails b hb).mono fun ts hts => hts.weaken (Nat.zero_le _)
  refine hcondition.bind (hsound b hb) fun c cs b1 hb1 hc => ?_
  have hlen1 := hb1.length_eq
  have halone : Begun convert 0 cs := Begun.weaken (.of_parsed hc) (Nat.zero_le _)
  refine (fails_accept? .question halone).bind (meets_accept? b1 .question)
    fun r ts b2 hb2 hr => ?_
  have hlen2 := hb2.length_eq
  rcases hr with ⟨question, rfl, rfl, hq⟩ | ⟨rfl, rfl, -⟩
  · rw [List.length_singleton] at hlen2
    rw [hb2.tokens, List.singleton_append] at hc
    have hthen : FailsAfter (Begun convert 0) (cs ++ [question]) branch b2 := by
      refine (hfails' b2 (by omega)).within fun us _ _ hus => ?_
      rw [← List.append_cons]
      exact hus.consequent hc hq
    refine hthen.bind (hsound' b2 (by omega)) fun t us b3 hb3 ht => ?_
    have hlen3 := hb3.length_eq
    rw [← List.append_cons]
    have hcolon : Begun convert 0 (cs ++ question :: us) := .missingColon hc hq ht.wellRead
    refine (fails_accept? .colon hcolon).bind (meets_accept? b3 .colon) fun r ks b4 hb4 hr => ?_
    have hlen4 := hb4.length_eq
    rcases hr with ⟨colon, rfl, rfl, hk⟩ | ⟨rfl, rfl, -⟩
    · refine ((hfails' b4 (by omega)).within fun es _ _ hes => ?_).map
      simpa using hes.otherwise hc hq ht.wellRead hk
    · -- The token in the place of the colon is looked at and not taken.
      rw [List.append_nil]
      refine (fails_peek_first hcolon).bind_look (meets_peek_end b4) fun next b5 hb5 hnext => ?_
      exact fails_about_next hnext.1 (fun h => hb5.failure.trans (hnext.2 h)) hcolon
  · exact failsAfter_pure c

/-- The rule of whole expressions fails only where an expression has begun.  Each expression
inside an expression has one token less to read and one unit of fuel less. -/
theorem locates_expression {convert : Converter} (hzero : convert.ReadsZero) (fuel : Nat) :
    Locates convert (expression fuel) 0 fuel := by
  induction fuel with
  | zero =>
    intro b hb
    exact absurd hb (Nat.not_lt_zero _)
  | succ fuel ih =>
    have hsound := sound_expression fuel
    have hprimary := sound_primary hsound (Nat.le_succ fuel)
    have hprimary' := locates_primary hsound ih hzero (Nat.le_succ fuel)
    have hunary : Sound (unary (primary (fuel + 1) (expression fuel)) (fuel + 1))
        Expr.unaryRank (fuel + 1) := fun b hb => meets_unary hprimary (fuel + 1) b hb hb
    have hunary' : Locates convert (unary (primary (fuel + 1) (expression fuel)) (fuel + 1))
        Expr.unaryRank (fuel + 1) := fun b hb => fails_unary hprimary' (fuel + 1) b hb hb
    exact locates_ternary (sound_operation (Nat.le_refl _) hunary)
      (locates_operation (Nat.le_refl _) hunary hunary') hsound ih

/-! ## Statements -/

section Statements

variable {convert : Converter} (hzero : convert.ReadsZero)

include hzero

theorem fails_wholeExpression (b : Buffer) :
    FailsAfter (Begun convert 0) [] wholeExpression b :=
  locates_expression hzero (b.weight + 1) b (Nat.lt_succ_of_le b.length_ahead_le_weight)

/-- A name at the start of a statement is committed to an assignment only when the second token
is seen, and until then it can stand alone. -/
theorem fails_bareStatement (b : Buffer) :
    FailsAfter (Extends convert IsStatement) [] bareStatement b := by
  have hnil : Begun convert 0 [] := .nil (Nat.zero_le _)
  have hlook : FailsAfter (Extends convert IsStatement) [] atAssignment b := by
    refine fails_nextTwo .identifier .assign hnil.statement fun t _ ht => ?_
    obtain ⟨s, hs⟩ := Token.answers_identifier.1 ht
    have hname : Begun convert 0 [t] := .of_whole ((isExpr_name hs).mono (Nat.zero_le _))
    exact hname.statement
  refine hlook.bind_look (meets_nextTwo b .identifier .assign) fun r b1 _ hr => ?_
  by_cases hassign : r = true
  · obtain ⟨target, sign, us, htokens, ht, hs⟩ := exists_of_nextTwo (hr.1 hassign)
    obtain ⟨s, ht⟩ := Token.answers_identifier.1 ht
    rw [if_pos hassign]
    refine fails_advance_bind htokens _ fun b2 h2 => ?_
    rw [ht]
    refine fails_advance_bind h2 _ fun b3 _ => ?_
    exact ((fails_wholeExpression hzero b3).within fun ts _ _ hts => hts.assign ht hs).map
  · rw [if_neg hassign]
    exact ((fails_wholeExpression hzero b1).mono fun ts hts => hts.statement).map

theorem fails_statement (b : Buffer) :
    FailsAfter (Extends convert IsStatement) [] statement b := by
  intro hcapacity f b₂ hrun
  unfold statement at hrun
  cases hbare : bareStatement b with
  | ok s b' =>
    rw [hbare] at hrun
    cases hrun
  | error e b' =>
    rw [hbare] at hrun
    cases hrun
    obtain ⟨ts, rest, hsplit, hts, hblames⟩ := fails_bareStatement hzero b hcapacity e b₂ hbare
    refine ⟨ts, rest, hsplit, hts, ?_⟩
    cases hblames with
    | token hx => exact .token hx
    | finish hx hend => exact .finish hx hend
    | scanning hf =>
      rcases refuses_of_ahead hf with ⟨e, rfl, -⟩ | ⟨text, e, -, -, -, rfl⟩
      · exact .scanning hf
      · exact .scanning hf
    | undefined => exact .undefined

/-- Statements fail only where a program has begun. -/
theorem fails_statements (fuel : Nat) (b : Buffer) (hfuel : b.ahead.tokens.length < fuel) :
    FailsAfter (Extends convert IsProgram) [] (statements fuel) b := by
  induction fuel generalizing b with
  | zero => exact absurd hfuel (Nat.not_lt_zero _)
  | succ fuel ih =>
    refine (fails_isEnd extends_program_nil).bindWith (meets_isEnd ParseFault.Possible anonymous b)
      fun r ts b1 hb1 hr => ?_
    obtain ⟨rfl, -⟩ := hr
    have hlen1 := hb1.length_eq
    rw [List.length_nil] at hlen1
    split
    · exact failsAfter_pure []
    · have hstatement : FailsAfter (Extends convert IsProgram) [] statement b1 :=
        (fails_statement hzero b1).mono fun _ => extends_program_of_statement
      refine hstatement.bindWith (meets_statement (meets_bareStatement b1))
        fun s ts b2 hb2 hs => ?_
      have hlen2 := hb2.length_eq
      have hpos : 0 < ts.length := List.length_pos_iff.2 hs.reads.ne_nil
      refine ((ih b2 (by omega)).within fun us rest hsplit hus => ?_).map
      rw [hsplit] at hs
      exact hs.extends_program hus

end Statements

end Grammar

/-- Scanning ends with no fault of the grammar. -/
theorem Buffer.failure?_ne_grammatical (b : Buffer) (e : ParseError) :
    b.ahead.failure? ≠ some (.grammatical e) := by
  intro hf
  rcases refuses_of_ahead hf with ⟨e', he, -⟩ | ⟨text, e', -, -, -, he⟩
  · cases he
  · cases he

/-- Scanning does not end with the comparison of an undefined length. -/
theorem Buffer.failure?_ne_undefinedOrder (b : Buffer) :
    b.ahead.failure? ≠ some (.breakdown .undefinedOrder) := by
  intro hf
  rcases refuses_of_ahead hf with ⟨e', he, -⟩ | ⟨text, e', -, -, hkind, he⟩
  · cases he
  · cases he
    cases hkind

/-! ## Sources -/

/-- Where parsing a source fails, a program has begun. -/
theorem parseProgram_fails {c : Config} (hvalid : c.Valid) (hzero : c.convert.ReadsZero)
    {source : String} {f : Failure} (h : parseProgram c source = .error f) :
    ∃ ts rest, (c.session source).ahead.tokens = ts ++ rest ∧ Extends c.convert IsProgram ts ∧
      Grammar.Blames (c.session source) f rest := by
  unfold parseProgram at h
  cases hrun : Grammar.program (c.session source) with
  | ok ss b' =>
    rw [hrun] at h
    cases h
  | error e b' =>
    rw [hrun] at h
    cases h
    have hfuel := Nat.lt_succ_of_le (c.session source).length_ahead_le_weight
    exact Grammar.fails_statements hzero _ (c.session source) hfuel hvalid f b' hrun

/-- The tokens are the first ones of a source that is a program. -/
def Config.Viable (c : Config) (ts : List Token) : Prop :=
  ∃ source ss us vs, parseProgram c source = .ok ss ∧
    tokenize source c.filename c.convert false = .ok us ∧ vs <+: significant us ∧
    List.Forall₂ Token.Same ts vs

/-- Tokens with a space behind each of them. -/
theorem relaid_spaced (ts : List Token) :
    Relaid ts (ts.flatMap fun t => t.text.toList ++ [' ']) := by
  induction ts with
  | nil => exact .finish .nil
  | cons t ts ih =>
    rw [List.flatMap_cons, List.append_assoc]
    exact .token ⟨' ', [], rfl, .inl rfl, .nil⟩ ih

/-- Tokens that can stand alone are those of a source. -/
theorem Config.exists_source (c : Config) {ts : List Token}
    (hts : ∀ t ∈ ts, t.Isolated c.convert) :
    ∃ source, (c.session source).ahead.failure? = none ∧
      List.Forall₂ Token.Same ts (c.session source).ahead.tokens := by
  let source := String.ofList (ts.flatMap fun t => t.text.toList ++ [' '])
  have hcode : Relaid ts source.toList := by
    rw [String.toList_ofList]
    exact relaid_spaced ts
  let cursor := Cursor.start source c.filename c.convert
  exact ⟨source, Cursor.ahead_of_relaid hcode (c := cursor) hts isGap_nil rfl⟩

/-- Tokens that begin a program can be written, with what is missing, as a source. -/
theorem Config.viable_of_extends {c : Config} (hvalid : c.Valid) {ts : List Token}
    (hts : ∀ t ∈ ts, t.Isolated c.convert) (h : Extends c.convert IsProgram ts) : c.Viable ts := by
  obtain ⟨us, hus, ss, hprogram⟩ := h
  have hisolated : ∀ t ∈ ts ++ us, t.Isolated c.convert := by
    intro t ht
    rcases List.mem_append.1 ht with ht | ht
    · exact hts t ht
    · exact hus t ht
  obtain ⟨source, hfailure, hsame⟩ := c.exists_source hisolated
  -- A buffer that already holds the tokens, to parse them before they are written.
  let held : Buffer := { c.session source with queue := ts ++ us, exhausted := true }
  obtain ⟨b', hanswer⟩ := Grammar.program_answers (b := held) hprogram rfl hvalid
  let L : Likeness := .placed Token.Same (fun _ _ => True) (fun h => h.1) (fun _ => trivial)
  have hlike : Buffer.LikeAhead L held (c.session source) :=
    ⟨hsame, rfl, hfailure, hvalid, hvalid⟩
  rcases Grammar.program_likeAhead hlike with
    ⟨ss₁, ss₂, b₁, b₂, -, hrun, -⟩ | ⟨x, x', b₁, b₂, hrun, -⟩ |
    ⟨t, t', v, v', b₁, b₂, -, hrun, -⟩
  · obtain ⟨ws, hws, hsignificant⟩ := tokenize_of_ahead hfailure false
    refine ⟨source, ss₂, ws, (significant ws).take ts.length, ?_, hws, List.take_prefix _ _, ?_⟩
    · rw [parseProgram, hrun]
    · rw [hsignificant]
      have hfirst := List.forall₂_take ts.length hsame
      rwa [List.take_left] at hfirst
  · rw [hanswer] at hrun
    cases hrun
  · rw [hanswer] at hrun
    cases hrun

/-- The significant tokens of a source, up to the first fragment that cannot be scanned. -/
def Config.scanned (c : Config) (source : String) : List Token := (c.session source).ahead.tokens

/-- What is known of a failure that is blamed on `rest`: the scanned tokens before it are the
first ones of a program. -/
theorem Config.viable_of_fails {c : Config} (hvalid : c.Valid) (hzero : c.convert.ReadsZero)
    {source : String} {f : Failure} (h : parseProgram c source = .error f) :
    ∃ ts rest, c.scanned source = ts ++ rest ∧ c.Viable ts ∧
      Grammar.Blames (c.session source) f rest := by
  obtain ⟨ts, rest, hsplit, hextends, hblames⟩ := parseProgram_fails hvalid hzero h
  refine ⟨ts, rest, hsplit, Config.viable_of_extends hvalid (fun t ht => ?_) hextends, hblames⟩
  have hmem : t ∈ (c.session source).ahead.tokens := by
    rw [hsplit]
    exact List.mem_append_left rest ht
  exact (Cursor.start source c.filename c.convert).isolated_of_ahead t hmem

/-- Failures are found at the earliest point.  If parsing ends with a fault about a token, the
tokens before it are the first ones of a program; if with a fault about no token, all tokens of
the source are; and if with a fragment that cannot be scanned, all tokens before it are. -/
theorem parseProgram_viable {c : Config} (hvalid : c.Valid) (type : NamedType)
    (htype : c.convert = type.converter) (source : String) :
    (∀ e : ParseError, parseProgram c source = .error (.grammatical e) →
      (∀ t, e.fault.token? = some t → t ∈ c.scanned source ∧
        c.Viable ((c.scanned source).take ((c.scanned source).idxOf t))) ∧
      (e.fault.token? = none → ∃ ts, tokenize source c.filename c.convert false = .ok ts ∧
        c.Viable (significant ts))) ∧
    ∀ e : LexError, parseProgram c source = .error (.lexical e) →
      tokenize source c.filename c.convert false = .error (.lexical e) ∧
      c.Viable (c.scanned source) := by
  have hzero : c.convert.ReadsZero := htype ▸ type.readsZero
  have horder : InOrder (c.scanned source) :=
    (Cursor.placed_start source c.filename c.convert).inOrder
  refine ⟨fun e h => ?_, fun e h => ?_⟩
  · obtain ⟨x, file⟩ := e
    obtain ⟨ts, rest, hsplit, hviable, hblames⟩ := Config.viable_of_fails hvalid hzero h
    rw [hsplit] at horder ⊢
    cases hblames with
    | @token _ _ u us hu =>
      refine ⟨fun t ht => ?_, fun hnone => ?_⟩
      · cases hu.symm.trans ht
        refine ⟨by simp, ?_⟩
        rw [horder.idxOf_eq, List.take_left]
        exact hviable
      · cases hu.symm.trans hnone
    | finish hnone hend =>
      refine ⟨fun t ht => ?_, fun _ => ?_⟩
      · cases hnone.symm.trans ht
      · obtain ⟨us, hus, hsignificant⟩ := tokenize_of_ahead hend false
        refine ⟨us, hus, ?_⟩
        have hall : significant us = ts := by
          rw [List.append_nil] at hsplit
          exact hsignificant.trans hsplit
        rwa [hall]
    | scanning hf => exact absurd hf (Buffer.failure?_ne_grammatical _ _)
  · obtain ⟨ts, rest, hsplit, hviable, hblames⟩ := Config.viable_of_fails hvalid hzero h
    cases hblames with
    | scanning hf =>
      rw [hsplit, List.append_nil]
      exact ⟨tokenize_of_failure hf false, hviable⟩

/-- A call with a comma before its closing brace; what follows the call cannot be scanned. -/
def trailingComma : String := "x = [-1, f\x7b2, \x7d $"

theorem parseProgram_viable_comma :
    ∃ e : ParseError, ∃ t : Token,
      parseProgram ⟨NamedType.integer.converter, anonymous, 2⟩ trailingComma =
        .error (.grammatical e) ∧
      e.fault.token? = some t ∧ t.pos = ⟨0, 12⟩ ∧
      t ∈ Config.scanned ⟨NamedType.integer.converter, anonymous, 2⟩ trailingComma ∧
      Config.Viable ⟨NamedType.integer.converter, anonymous, 2⟩
        ((Config.scanned ⟨NamedType.integer.converter, anonymous, 2⟩ trailingComma).take
          ((Config.scanned ⟨NamedType.integer.converter, anonymous, 2⟩
            trailingComma).idxOf t)) := by
  -- Trees have no decidable equality, so they are forgotten before the outcome is compared.
  have hcomma : (parseProgram ⟨NamedType.integer.converter, anonymous, 2⟩ trailingComma).map
      (fun _ => ()) = .error (.grammatical
        ⟨.unexpectedComma ⟨.particle .comma, ⟨0, 12⟩, ","⟩ true, anonymous⟩) := by
    decide +kernel
  cases h : parseProgram ⟨NamedType.integer.converter, anonymous, 2⟩ trailingComma with
  | ok ss =>
    rw [h] at hcomma
    cases hcomma
  | error f =>
    rw [h] at hcomma
    cases hcomma
    have hviable := parseProgram_viable (c := ⟨NamedType.integer.converter, anonymous, 2⟩)
      (Int.le_refl 2) .integer rfl trailingComma
    exact ⟨_, _, rfl, rfl, rfl, (hviable.1 _ h).1 _ rfl⟩

end ExprFront
