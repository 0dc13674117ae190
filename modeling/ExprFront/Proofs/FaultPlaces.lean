import ExprFront.Proofs.Alternation
import ExprFront.Proofs.Sites

/-!
# Faults are where they say

A fault names a place, and often a token.  Some of the places are read off the cursor, which is
behind everything that has been looked at, so one look too many anywhere would move them.  This
module says where each fault is, by nothing but the source and the number of tokens consumed.

* `EndsInBranch` says where a colon is missing.  `Closed` is about question marks and colons as
  brackets; it gives that the branch is the only one that the tokens end with.
* `ParseFault.AnchoredAt` says of each fault where it is.
* `Grammar.Sits` is the contract of a rule: from a place in the source it goes on to another one,
  and any fault is anchored there.  `Sits.bind` composes contracts, and there is one lemma for each
  rule.  Where the rule takes fuel, the contract holds with fewer tokens ahead than units of fuel
  (`Seated`), by induction on it.

A token is refused only by the rule of primary forms, which is called behind the operators that
stand before an operand.  So a refused token is no name, no number and no operator: it starts no
expression, and nothing behind it has been looked at.

Main result: `Session.statement_anchored`.
-/

namespace ExprFront

/-! ## Choices that are closed -/

/-- A question mark opens a choice, and a colon closes it. -/
def Lexeme.depth : Lexeme → Int
  | .particle .question => 1
  | .particle .colon => -1
  | _ => 0

/-- By how many the question marks exceed the colons. -/
def openChoices : List Token → Int
  | [] => 0
  | t :: ts => t.lexeme.depth + openChoices ts

@[simp] theorem openChoices_nil : openChoices [] = 0 := rfl

@[simp] theorem openChoices_cons (t : Token) (ts : List Token) :
    openChoices (t :: ts) = t.lexeme.depth + openChoices ts := rfl

@[simp] theorem openChoices_append (ts us : List Token) :
    openChoices (ts ++ us) = openChoices ts + openChoices us := by
  induction ts with
  | nil => simp
  | cons t ts ih => simp only [List.cons_append, openChoices_cons, ih, Int.add_assoc]

/-- Every choice that is opened in the tokens is closed in them. -/
structure Closed (ts : List Token) : Prop where
  total : openChoices ts = 0
  suffix : ∀ us, us <:+ ts → openChoices us ≤ 0

namespace Closed

variable {ts us : List Token}

theorem nil : Closed [] := ⟨rfl, fun us h => by simp [List.suffix_nil.1 h]⟩

theorem cons {t : Token} (ht : t.lexeme.depth = 0) (h : Closed ts) : Closed (t :: ts) := by
  have htotal : openChoices (t :: ts) = 0 := by simp [ht, h.total]
  refine ⟨htotal, fun us hus => ?_⟩
  rcases List.suffix_cons_iff.1 hus with rfl | hus
  · exact Int.le_of_eq htotal
  · exact h.suffix us hus

theorem append (hts : Closed ts) (hus : Closed us) : Closed (ts ++ us) := by
  refine ⟨by simp [hts.total, hus.total], ?_⟩
  rintro vs ⟨before, hvs⟩
  rcases List.append_eq_append_iff.1 hvs with ⟨ws, rfl, rfl⟩ | ⟨ws, rfl, rfl⟩
  · have hws := hts.suffix ws (List.suffix_append _ _)
    simpa [hus.total] using hws
  · exact hus.suffix vs (List.suffix_append _ _)

theorem choice {question colon : Token} (hq : question.lexeme = .particle .question)
    (hts : Closed ts) (hk : colon.lexeme = .particle .colon) (hus : Closed us) :
    Closed (question :: (ts ++ colon :: us)) := by
  have hopen : question.lexeme.depth = 1 := congrArg Lexeme.depth hq
  have hclose : colon.lexeme.depth = -1 := congrArg Lexeme.depth hk
  have htotal : openChoices (question :: (ts ++ colon :: us)) = 0 := by
    simp [hopen, hclose, hts.total, hus.total]
  refine ⟨htotal, fun vs hvs => ?_⟩
  rcases List.suffix_cons_iff.1 hvs with rfl | ⟨before, hvs⟩
  · exact Int.le_of_eq htotal
  rcases List.append_eq_append_iff.1 hvs with ⟨ws, rfl, rfl⟩ | ⟨ws, rfl, hws⟩
  · have hws := hts.suffix ws (List.suffix_append _ _)
    simp only [openChoices_append, openChoices_cons, hclose, hus.total]
    omega
  · rcases List.suffix_cons_iff.1 ⟨ws, hws.symm⟩ with rfl | hvs
    · simp [hclose, hus.total]
    · exact hus.suffix vs hvs

theorem following {α : Type} {xs : List α} (h : Following (fun _ => Closed) xs ts) :
    Closed ts := by
  induction h with
  | nil => exact nil
  | cons hcomma hx _ ih => exact cons (congrArg Lexeme.depth hcomma) (hx.append ih)

theorem separated {α : Type} {xs : List α} (h : Separated (fun _ => Closed) xs ts) :
    Closed ts := by
  cases h with
  | nil => exact nil
  | cons hx tail => exact hx.append (following tail)

/-- An open question mark is the only one with nothing but closed choices behind it. -/
theorem eq_of_suffix {q q' : Token} (hq : q.lexeme = .particle .question) (hts : Closed ts)
    (hus : Closed us) (h : q :: ts <:+ q' :: us) : ts = us := by
  rcases List.suffix_cons_iff.1 h with heq | hsuffix
  · exact (List.cons.inj heq).2
  · have hopen := hus.suffix _ hsuffix
    rw [openChoices_cons, hq, hts.total] at hopen
    exact absurd hopen (by decide)

end Closed

/-- All choices of an expression are closed. -/
theorem Expr.Reads.closed {e : Expr} {ts : List Token} (h : e.Reads ts) :
    e.Stratified → Closed ts := by
  induction h with
  | number ht | name ht => exact fun _ => .cons (congrArg Lexeme.depth ht) .nil
  | group ho _ hc ih =>
    intro hstrat
    cases hstrat with
    | group hinner =>
      exact .cons (congrArg Lexeme.depth ho)
        ((ih hinner).append (.cons (congrArg Lexeme.depth hc) .nil))
  | unary ht _ ih =>
    intro hstrat
    cases hstrat with
    | unary hop _ he =>
      have hdepth : ∀ op ∈ Grammar.unaryOperators, (Lexeme.particle op).depth = 0 := by decide
      exact .cons ((congrArg Lexeme.depth ht).trans (hdepth _ hop)) (ih he)
  | binary _ ht _ ihl ihr =>
    intro hstrat
    cases hstrat with
    | binary t hop _ _ _ hl hr =>
      have hdepth : ∀ op ∈ t.operators, (Lexeme.particle op).depth = 0 := by cases t <;> decide
      exact (ihl hl).append (.cons ((congrArg Lexeme.depth ht).trans (hdepth _ hop)) (ihr hr))
  | ternary _ hq _ hk _ ihc iht ihe =>
    intro hstrat
    cases hstrat with
    | ternary _ _ hc ht he => exact (ihc hc).append (.choice hq (iht ht) hk (ihe he))
  | call hw ho hargs _ hc ih =>
    intro hstrat
    cases hstrat with
    | call hstrat =>
      have hitems := Closed.separated (hargs.mono fun a ha us h => ih a us h (hstrat a ha))
      exact .cons (congrArg Lexeme.depth hw) (.cons (congrArg Lexeme.depth ho)
        (hitems.append (.cons (congrArg Lexeme.depth hc) .nil)))
  | lambda hw ho hps hc _ ih =>
    intro hstrat
    cases hstrat with
    | lambda hbody =>
      have hitems := Closed.separated (hps.mono fun _ _ us ⟨t, hus, ht⟩ =>
        hus ▸ .cons (congrArg Lexeme.depth ht) .nil)
      exact .cons (congrArg Lexeme.depth hw) (.cons (congrArg Lexeme.depth ho)
        (hitems.append (.cons (congrArg Lexeme.depth hc) (ih hbody))))
  | list ho hvalues _ hc ih =>
    intro hstrat
    cases hstrat with
    | list hstrat =>
      have hitems := Closed.separated (hvalues.mono fun v hv us h => ih v us h (hstrat v hv))
      exact .cons (congrArg Lexeme.depth ho)
        (hitems.append (.cons (congrArg Lexeme.depth hc) .nil))
  | range ho hf hd hl _ hc =>
    exact fun _ => .cons (congrArg Lexeme.depth ho) (.cons (congrArg Lexeme.depth hf)
      (.cons (congrArg Lexeme.depth hd) (.cons (congrArg Lexeme.depth hl)
        (.cons (congrArg Lexeme.depth hc) .nil))))
  | rangeStep ho hf hd hl _ hs hw hc =>
    exact fun _ => .cons (congrArg Lexeme.depth ho) (.cons (congrArg Lexeme.depth hf)
      (.cons (congrArg Lexeme.depth hd) (.cons (congrArg Lexeme.depth hl)
        (.cons (congrArg Lexeme.depth hs) (.cons (congrArg Lexeme.depth hw)
          (.cons (congrArg Lexeme.depth hc) .nil))))))

/-! ## Places of faults -/

/-- The tokens `past`, which are followed by `rest`, end with a condition, a question mark and an
expression at `pos`. -/
def EndsInBranch (past rest : List Token) (pos : Position) : Prop :=
  ∃ before condition cs question branch ts, past = before ++ (cs ++ question :: ts) ∧
    question.lexeme = .particle .question ∧
    Parsed Tier.equality.rank condition cs (question :: (ts ++ rest)) ∧
    Parsed 0 branch ts rest ∧ pos = branch.pos

/-- There is one such expression only. -/
theorem EndsInBranch.unique {past rest : List Token} {pos pos' : Position}
    (h : EndsInBranch past rest pos) (h' : EndsInBranch past rest pos') : pos = pos' := by
  obtain ⟨before, c, cs, q, branch, ts, rfl, hq, -, hbranch, rfl⟩ := h
  obtain ⟨before', c', cs', q', branch', ts', hsplit, hq', -, hbranch', rfl⟩ := h'
  have hts := hbranch.reads.closed hbranch.stratified
  have hts' := hbranch'.reads.closed hbranch'.stratified
  have hsuffix : q :: ts <:+ before ++ (cs ++ q :: ts) := ⟨before ++ cs, List.append_assoc ..⟩
  have hsuffix' : q' :: ts' <:+ before ++ (cs ++ q :: ts) :=
    ⟨before' ++ cs', (List.append_assoc ..).trans hsplit.symm⟩
  have heq : ts = ts' := by
    rcases List.suffix_or_suffix_of_suffix hsuffix hsuffix' with h | h
    · exact hts.eq_of_suffix hq hts' h
    · exact (hts'.eq_of_suffix hq' hts h).symm
  subst heq
  rw [(hbranch.unique hbranch' rfl).1]

/-- The fault is where it says, in a source that is read from `c₀` on: the tokens `past` have been
consumed, and `ahead` is still to come. -/
def ParseFault.AnchoredAt (c₀ : Cursor) (past : List Token) (ahead : Ahead) : ParseFault → Prop
  | unexpectedToken _ t | unexpectedComma t _ | invalidTarget t | invalidRange _ t =>
    past.getLast? = some t
  | unclosed _ pos (some t) => past.getLast? = some t ∧ pos = t.pos
  | unclosed _ pos none => ahead = ⟨[], none⟩ ∧ past.getLast?.map Token.pos = some pos
  | missingToken _ pos found =>
    found = ahead.tokens.head? ∧ (found = none → ahead.failure? = none) ∧
      EndsInBranch past ahead.tokens pos
  | invalidExpression _ pos (some t) =>
    ahead.tokens.head? = some t ∧ ¬ ItemRule.expression.Starts t ∧ t.EndsAt c₀.source pos
  | invalidExpression _ pos none | unexpectedEnd _ pos => ahead = ⟨[], none⟩ ∧ c₀.EndsAt pos
  | noProgress _ => False

namespace Grammar

open Buffer

/-- A run of `p` from a buffer that has consumed the tokens `past` keeps to the source.  If it
answers, then as `Post` says; if it ends with a fault, the fault is where it says. -/
def Sits {α : Type} (c₀ : Cursor) (p : Parser α) (past : List Token) (b : Buffer)
    (Post : α → List Token → Buffer → Prop) : Prop :=
  match p b with
  | .ok a b' => ∃ ts, b.Consumes ts b' ∧ Sited c₀ (past ++ ts) b' ∧ Post a ts b'
  | .error f b' => ∃ ts, b.Consumes ts b' ∧ Sited c₀ (past ++ ts) b' ∧
      ∀ e, f = .grammatical e → e.fault.AnchoredAt c₀ (past ++ ts) b'.ahead

section Composition

variable {α β : Type} {c₀ : Cursor} {past : List Token} {b : Buffer} {p : Parser α}
  {q : α → Parser β} {R Post : α → List Token → Buffer → Prop}

theorem sits_pure {a : α} (hb : Sited c₀ past b) (h : Post a [] b) :
    Sits c₀ (pure a) past b Post :=
  ⟨[], .refl b, by rwa [List.append_nil], h⟩

/-- A run that ends with a fault and leaves the buffer as it is. -/
theorem sits_fault {x : ParseFault} (hrun : p b = .error (.grammatical ⟨x, anonymous⟩) b)
    (hb : Sited c₀ past b) (h : x.AnchoredAt c₀ past b.ahead) : Sits c₀ p past b Post := by
  unfold Sits
  rw [hrun]
  refine ⟨[], .refl b, by rwa [List.append_nil], fun e he => ?_⟩
  cases he
  rwa [List.append_nil]

theorem sits_fail {x : ParseFault} (hb : Sited c₀ past b) (h : x.AnchoredAt c₀ past b.ahead) :
    Sits c₀ (fail x : Parser α) past b Post := sits_fault rfl hb h

/-- A question about a value that breaks down is no fault. -/
theorem sits_breakdown (hb : Sited c₀ past b) (e : ConversionError) :
    Sits c₀ (throw (.breakdown e) : Parser α) past b Post := by
  refine ⟨[], .refl b, by rwa [List.append_nil], fun x hx => ?_⟩
  cases hx

/-- Answering or failing, a run leaves a buffer in the source. -/
theorem Sits.sited (hp : Sits c₀ p past b Post) : ∃ us, Sited c₀ us (stateOf (p b)) := by
  unfold Sits at hp
  cases hpb : p b with
  | ok a b' =>
    rw [hpb] at hp
    obtain ⟨ts, -, hsited, -⟩ := hp
    exact ⟨past ++ ts, hsited⟩
  | error f b' =>
    rw [hpb] at hp
    obtain ⟨ts, -, hsited, -⟩ := hp
    exact ⟨past ++ ts, hsited⟩

theorem Sits.anchored (hp : Sits c₀ p past b Post) {e : ParseError} {b' : Buffer}
    (h : p b = .error (.grammatical e) b') :
    ∃ us, Sited c₀ us b' ∧ e.fault.AnchoredAt c₀ us b'.ahead := by
  unfold Sits at hp
  rw [h] at hp
  obtain ⟨ts, -, hsited, hanchored⟩ := hp
  exact ⟨past ++ ts, hsited, hanchored e rfl⟩

/-- The second rule starts where the first one ends. -/
theorem Sits.bind {Goal : β → List Token → Buffer → Prop} (hp : Sits c₀ p past b R)
    (hq : ∀ a ts b', b.Consumes ts b' → Sited c₀ (past ++ ts) b' → R a ts b' →
      Sits c₀ (q a) (past ++ ts) b' fun c us b'' => Goal c (ts ++ us) b'') :
    Sits c₀ (p >>= q) past b Goal := by
  have hrun : (p >>= q) b = EStateM.bind p q b := rfl
  unfold Sits at hp ⊢
  rw [hrun, EStateM.bind]
  cases hpb : p b with
  | error f b' =>
    rw [hpb] at hp
    exact hp
  | ok a b' =>
    rw [hpb] at hp
    obtain ⟨ts, hconsumes, hsited, hR⟩ := hp
    have hnext := hq a ts b' hconsumes hsited hR
    unfold Sits at hnext
    simp only
    split
    · next c b'' hqb =>
      rw [hqb] at hnext
      obtain ⟨us, hconsumes', hsited', hGoal⟩ := hnext
      exact ⟨ts ++ us, hconsumes.trans hconsumes', List.append_assoc .. ▸ hsited', hGoal⟩
    · next f b'' hqb =>
      rw [hqb] at hnext
      obtain ⟨us, hconsumes', hsited', hanchored⟩ := hnext
      rw [List.append_assoc] at hsited' hanchored
      exact ⟨ts ++ us, hconsumes.trans hconsumes', hsited', hanchored⟩

theorem Sits.mono (hp : Sits c₀ p past b R) (h : ∀ a ts b', R a ts b' → Post a ts b') :
    Sits c₀ p past b Post := by
  unfold Sits at hp ⊢
  split
  · next a b' hpb =>
    rw [hpb] at hp
    obtain ⟨ts, hconsumes, hsited, hR⟩ := hp
    exact ⟨ts, hconsumes, hsited, h a ts b' hR⟩
  · next f b' hpb =>
    rw [hpb] at hp
    exact hp

/-- What the contract of the rule says of its answer. -/
theorem Sits.and_meets {M : α → List Token → List Token → Prop} (hp : Sits c₀ p past b R)
    (hmeets : Meets p b M) :
    Sits c₀ p past b fun a ts b' => R a ts b' ∧ M a ts b'.ahead.tokens := by
  unfold Sits at hp ⊢
  unfold Meets MeetsIn MeetsWith at hmeets
  split
  · next a b' hpb =>
    rw [hpb] at hp hmeets
    obtain ⟨ts, hconsumes, hsited, hR⟩ := hp
    obtain ⟨us, hconsumes', hM⟩ := hmeets
    obtain rfl : us = ts :=
      List.append_cancel_right (hconsumes'.tokens.symm.trans hconsumes.tokens)
    exact ⟨us, hconsumes, hsited, hR, hM⟩
  · next f b' hpb =>
    rw [hpb] at hp
    exact hp

/-- What is made of an answer does not matter. -/
theorem Sits.map {g : α → β} (hp : Sits c₀ p past b R) :
    Sits c₀ (do return g (← p)) past b fun _ _ _ => True :=
  hp.bind fun _ _ _ _ hsited _ => sits_pure hsited trivial

/-- A rule that only looks is followed by another one from the same tokens. -/
theorem Sits.bind_look {Goal : β → List Token → Buffer → Prop} {R : α → Buffer → Prop}
    (hp : Sits c₀ p past b fun a ts b' => ts = [] ∧ R a b')
    (hq : ∀ a b', b.Consumes [] b' → Sited c₀ past b' → R a b' → Sits c₀ (q a) past b' Goal) :
    Sits c₀ (p >>= q) past b Goal := by
  refine hp.bind fun a ts b' hconsumes hsited h => ?_
  obtain ⟨rfl, hR⟩ := h
  rw [List.append_nil] at hsited ⊢
  exact hq a b' hconsumes hsited hR

end Composition

/-! ## Looks and single tokens -/

section Tokens

variable {c₀ : Cursor} {past : List Token} {b : Buffer}

/-- A failure of scanning is no fault. -/
theorem ne_grammatical_of_unreadable {offset : Int} {f : Failure} (h : b.Unreadable offset f)
    (e : ParseError) : f ≠ .grammatical e := by
  rintro rfl
  rcases h with ⟨hf, -⟩ | ⟨-, hf⟩
  · exact failure?_ne_grammatical b e hf
  · cases hf

theorem sits_fill (hb : Sited c₀ past b) {offset : Int} (hoffset : InSight b offset) :
    Sits c₀ (fill offset) past b fun _ ts b' => ts = [] ∧
      (∀ t, b.queue.head? = some t → b'.queue.head? = some t) ∧
      (offset.toNat < b'.queue.length ∨ b'.exhausted = true) := by
  have hfill := b.fill_ahead hoffset.nonneg
  have hsited := hb.fill hoffset
  have hcareful : Careful (fun _ => True) (fill offset) b _ := careful_fill hb.tidy hoffset
  unfold Sits
  cases hrun : fill offset b with
  | ok u b' =>
    rw [hrun] at hfill hsited
    refine ⟨[], hfill.1, by rwa [List.append_nil], rfl, ?_, hfill.2⟩
    exact (hcareful.answer u b' hrun).2.1
  | error f b' =>
    rw [hrun] at hfill hsited
    refine ⟨[], hfill.1, by rwa [List.append_nil], fun e he => ?_⟩
    exact absurd he (ne_grammatical_of_unreadable hfill.2 e)

/-- What a look at `offset` has brought into view. -/
structure Seen (offset : Int) (b : Buffer) (r : Option Token) (b' : Buffer) : Prop where
  head : ∀ t, b.queue.head? = some t → b'.queue.head? = some t
  first : b'.queue.head? = b'.ahead.tokens.head?
  answer : r = b'.ahead.tokens[offset.toNat]?
  finish : r = none → b'.exhausted = true

theorem sits_peek (hb : Sited c₀ past b) {offset : Int} (hoffset : InSight b offset) :
    Sits c₀ (peek offset) past b fun r ts b' => ts = [] ∧ Seen offset b r b' := by
  refine (sits_fill hb hoffset).bind_look fun _ b1 _ hb1 h => ?_
  obtain ⟨hhead, hfilled⟩ := h
  have hbuffered : buffered offset b1 = .ok b1.queue[offset.toNat]? b1 := by
    rw [buffered, if_pos hoffset.nonneg]
  have hfirst : 0 < b1.queue.length ∨ b1.exhausted = true := hfilled.imp_left (by omega)
  unfold Sits
  rw [hbuffered]
  refine ⟨[], .refl b1, by rwa [List.append_nil], rfl, hhead, ?_, queue_getElem? hfilled, ?_⟩
  · rw [List.head?_eq_getElem?, List.head?_eq_getElem?, queue_getElem? hfirst]
  · intro hnone
    exact hfilled.resolve_left (Nat.not_lt.2 (List.getElem?_eq_none_iff.1 hnone))

theorem sits_peek_first (hb : Sited c₀ past b) :
    Sits c₀ (peek 0) past b fun r ts b' =>
      ts = [] ∧ r = b'.ahead.tokens.head? ∧ r = b'.queue.head? ∧
        (r = none → b'.exhausted = true) := by
  refine (sits_peek hb (.inl rfl)).mono fun r ts b' h => ⟨h.1, ?_, ?_, h.2.finish⟩
  · rw [h.2.answer, List.head?_eq_getElem?]
    rfl
  · rw [h.2.first, h.2.answer, List.head?_eq_getElem?]
    rfl

theorem sits_check (hb : Sited c₀ past b) (p : Particle) :
    Sits c₀ (check p 0) past b fun r ts b' =>
      ts = [] ∧ (r = true ↔ Next p b'.ahead.tokens) := by
  have hlook : Sits c₀ (check p 0) past b fun _ _ _ => True := (sits_peek_first hb).map
  exact (hlook.and_meets (meets_check b p)).mono fun _ _ _ h => h.2

/-- A look at the second token leaves a first one behind which one may look again. -/
theorem sits_check_second (hb : Sited c₀ past b) (hsight : InSight b 1) (p : Particle) :
    Sits c₀ (check p 1) past b fun r ts b' =>
      ts = [] ∧ InSight b' 1 ∧ (r = true ↔ Next p b'.ahead.tokens.tail) := by
  have hlook : Sits c₀ (check p 1) past b fun _ ts b' => ts = [] ∧ InSight b' 1 := by
    refine (sits_peek hb hsight).bind_look fun r b1 _ hb1 h => sits_pure hb1 ⟨rfl, ?_⟩
    obtain ⟨-, t, ht, hleads⟩ := hsight.resolve_left (by decide)
    exact .inr ⟨rfl, t, h.head t ht, hleads⟩
  exact (hlook.and_meets (meets_check_second b p)).mono fun _ _ _ h => ⟨h.1.1, h.1.2, h.2.2⟩

/-- A second token is looked at where the first one answers to a kind of names or numbers. -/
theorem sits_nextTwo (hb : Sited c₀ past b) {k : Kind}
    (hk : ∀ t : Token, t.answers k = true → t.Leads) (p : Particle) :
    Sits c₀ (do if ← hasKind k 0 then check p 1 else return false) past b fun r ts b' =>
      ts = [] ∧ (r = true ↔ NextTwo k p b'.ahead.tokens) := by
  have hfirst : Sits c₀ (hasKind k 0) past b fun r ts b' => ts = [] ∧
      (r = true → InSight b' 1) := by
    refine (sits_peek_first hb).bind_look fun r b1 _ hb1 h => sits_pure hb1 ⟨rfl, fun hr => ?_⟩
    obtain ⟨t, ht, hanswers⟩ := (Option.any_eq_true _ _).1 hr
    exact .inr ⟨rfl, t, h.2.1.symm.trans ht, hk t hanswers⟩
  have hlook : Sits c₀ (do if ← hasKind k 0 then check p 1 else return false) past b
      fun _ _ _ => True := by
    refine hfirst.bind_look fun r b1 _ hb1 h => ?_
    split
    · next hr => exact (sits_check_second hb1 (h hr) p).mono fun _ _ _ _ => trivial
    · exact sits_pure hb1 trivial
  exact (hlook.and_meets (meets_nextTwo b k p)).mono fun _ _ _ h => h.2

theorem sits_pop (hb : Sited c₀ past b) :
    Sits c₀ pop past b fun r ts b' =>
      (∃ t, r = some t ∧ ts = [t]) ∨
        (r = none ∧ ts = [] ∧ b'.ahead = ⟨[], none⟩ ∧ b'.exhausted = true) := by
  refine (sits_fill hb (.inl rfl)).bind_look fun _ b1 _ hb1 h => ?_
  unfold Sits
  rw [Buffer.shift]
  cases hq : b1.queue with
  | nil =>
    have hex : b1.exhausted = true := h.2.resolve_left (by simp [hq])
    refine ⟨[], .refl b1, by rwa [List.append_nil], .inr ⟨rfl, rfl, ?_, hex⟩⟩
    rw [ahead, if_pos hex, hq]
  | cons t ts =>
    have hsited := hb1.shift hq
    refine ⟨[t], ⟨?_, ?_, rfl, rfl⟩, hsited, .inl ⟨t, rfl, rfl⟩⟩
    · have htokens := hb1.tokens.symm.trans hsited.tokens
      rw [List.append_assoc] at htokens
      exact List.append_cancel_left htokens
    · rw [hsited.failure, hb1.failure]

theorem sits_advance (hb : Sited c₀ past b) (expected : String) :
    Sits c₀ (advance expected) past b fun t ts _ => ts = [t] := by
  refine (sits_pop hb).bind fun r ts b1 _ hb1 h => ?_
  rcases h with ⟨t, rfl, rfl⟩ | ⟨rfl, rfl, hnil, hex⟩
  · exact sits_pure hb1 rfl
  · exact sits_fault (x := .unexpectedEnd expected b1.cursor.pos) rfl hb1 ⟨hnil, hb1.endsAt hex⟩

/-- A token that is known to come next. -/
theorem sits_advance_cons (hb : Sited c₀ past b) {t : Token} {us : List Token}
    (h : b.ahead.tokens = t :: us) (expected : String) :
    Sits c₀ (advance expected) past b fun u ts b' =>
      u = t ∧ ts = [t] ∧ b'.ahead.tokens = us :=
  ((sits_advance hb expected).and_meets (meets_advance_cons h expected)).mono fun _ _ _ h => h.2

theorem sits_accept? (hb : Sited c₀ past b) (p : Particle) :
    Sits c₀ (accept? p) past b fun r ts b' =>
      (∃ t, r = some t ∧ ts = [t] ∧ t.lexeme = .particle p) ∨
        (r = none ∧ ts = [] ∧ ¬ Next p b'.ahead.tokens) := by
  have htake : Sits c₀ (accept? p) past b fun _ _ _ => True := by
    refine (sits_check hb p).bind_look fun r b1 _ hb1 _ => ?_
    split
    · exact (sits_advance hb1 _).map
    · exact sits_pure hb1 trivial
  exact (htake.and_meets (meets_accept? b p)).mono fun _ _ _ h => h.2

theorem sits_operator? (hb : Sited c₀ past b) (ops : List Particle) :
    Sits c₀ (operator? ops) past b fun r ts b' =>
      (∃ t op, r = some op ∧ ts = [t] ∧ t.lexeme = .particle op ∧ op ∈ ops) ∨
        (r = none ∧ ts = [] ∧ ∀ op ∈ ops, ¬ Next op b'.ahead.tokens) := by
  have htake : Sits c₀ (operator? ops) past b fun _ _ _ => True := by
    refine (sits_peek_first hb).bind_look fun r b1 _ hb1 _ => ?_
    split
    · split
      · exact (sits_advance hb1 _).map
      · exact sits_pure hb1 trivial
    · exact sits_pure hb1 trivial
  exact (htake.and_meets (meets_operator? b ops)).mono fun _ _ _ h => h.2

/-- The last token of the source is known once one has been consumed. -/
theorem sits_expectClosing (hb : Sited c₀ past b) (hpast : past ≠ []) (p : Particle)
    (message : String) : Sits c₀ (expectClosing p message) past b fun _ _ _ => True := by
  refine (sits_accept? hb p).bind fun r ts b1 _ hb1 h => ?_
  rcases h with ⟨t, rfl, rfl, -⟩ | ⟨rfl, rfl, -⟩
  · exact sits_pure hb1 trivial
  rw [List.append_nil] at hb1 ⊢
  refine (sits_pop hb1).bind fun r ts b2 _ hb2 h => ?_
  rcases h with ⟨t, rfl, rfl⟩ | ⟨rfl, rfl, hnil, -⟩
  · exact sits_fail hb2 ⟨List.getLast?_concat, rfl⟩
  · rw [List.append_nil] at hb2 ⊢
    obtain ⟨t, ht⟩ := Option.isSome_iff_exists.1 (List.getLast?_isSome.2 hpast)
    refine sits_fault (x := .unclosed message (b2.lastPos.getD b2.cursor.pos) none) rfl hb2
      ⟨hnil, ?_⟩
    rw [hb2.lastPos, ht]
    rfl

theorem sits_isEnd (hb : Sited c₀ past b) :
    Sits c₀ isEnd past b fun _ ts _ => ts = [] := by
  refine (sits_fill hb (.inl rfl)).bind_look fun _ b1 _ hb1 _ => ?_
  exact ⟨[], .refl b1, by rwa [List.append_nil], rfl⟩

end Tokens

/-! ## Rules -/

/-- The rule keeps to the source, from buffers with fewer than `n` tokens ahead. -/
def Seated {α : Type} (c₀ : Cursor) (p : Parser α) (n : Nat) : Prop :=
  ∀ ⦃past : List Token⦄ ⦃b : Buffer⦄, Sited c₀ past b → b.ahead.tokens.length < n →
    Sits c₀ p past b fun _ _ _ => True

section Items

variable {α : Type} {c₀ : Cursor} {past : List Token} {b : Buffer} {item : Parser α} {n : Nat}

theorem seated_parameter (n : Nat) : Seated c₀ parameter n := by
  intro past b hb _
  refine (sits_advance hb _).bind fun t ts b1 _ hb1 ht => ?_
  subst ht
  split
  · exact sits_pure hb1 trivial
  · exact sits_fail hb1 List.getLast?_concat

variable (hitem : Seated c₀ item n)

include hitem

/-- A comma where an item is due is the last token consumed. -/
theorem sits_dueItem (hb : Sited c₀ past b) (hn : b.ahead.tokens.length < n) :
    Sits c₀ (dueItem item) past b fun _ _ _ => True := by
  refine (sits_accept? hb .comma).bind fun r ts b1 hb1 hsited h => ?_
  have hlen := hb1.length_eq
  rcases h with ⟨comma, rfl, rfl, -⟩ | ⟨rfl, rfl, -⟩
  · exact sits_fail hsited List.getLast?_concat
  · rw [List.length_nil] at hlen
    exact hitem hsited (by omega)

theorem sits_moreItems (closing : Particle) :
    ∀ (fuel : Nat) {past : List Token} {b : Buffer}, Sited c₀ past b →
      b.ahead.tokens.length < n → b.ahead.tokens.length < fuel →
      Sits c₀ (moreItems closing item fuel) past b fun _ _ _ => True := by
  intro fuel
  induction fuel with
  | zero =>
    intro past b _ _ hfuel
    exact absurd hfuel (Nat.not_lt_zero _)
  | succ fuel ih =>
    intro past b hb hn hfuel
    rw [moreItems]
    refine (sits_accept? hb closing).bind fun r ts b1 hb1 hsited1 h => ?_
    have hlen1 := hb1.length_eq
    rcases h with ⟨c, rfl, rfl, -⟩ | ⟨rfl, rfl, -⟩
    · exact sits_pure hsited1 trivial
    refine (sits_accept? hsited1 .comma).bind fun r ts b2 hb2 hsited2 h => ?_
    have hlen2 := hb2.length_eq
    rcases h with ⟨comma, rfl, rfl, -⟩ | ⟨rfl, rfl, -⟩
    · refine (sits_check hsited2 closing).bind_look fun r b3 hb3 hsited3 _ => ?_
      have hlen3 := hb3.length_eq
      simp only [List.length_nil, List.length_singleton] at hlen1 hlen2 hlen3
      split
      · -- The closing delimiter is looked at only: the comma is still the last token consumed.
        exact sits_fail hsited3 List.getLast?_concat
      · refine (sits_dueItem hitem hsited3 (by omega)).bind fun x ts b4 hb4 hsited4 _ => ?_
        have hlen4 := hb4.length_eq
        exact (ih hsited4 (by omega) (by omega)).map
    · refine (sits_advance hsited2 _).bind fun found ts b3 _ hsited3 hfound => ?_
      subst hfound
      exact sits_fail hsited3 List.getLast?_concat

theorem sits_delimited (closing : Particle) {fuel : Nat} (hb : Sited c₀ past b)
    (hn : b.ahead.tokens.length < n) (hfuel : n ≤ fuel) :
    Sits c₀ (delimited fuel closing item) past b fun _ _ _ => True := by
  refine (sits_accept? hb closing).bind fun r ts b1 hb1 hsited1 h => ?_
  have hlen1 := hb1.length_eq
  rcases h with ⟨c, rfl, rfl, -⟩ | ⟨rfl, rfl, -⟩
  · exact sits_pure hsited1 trivial
  · rw [List.length_nil] at hlen1
    refine (sits_dueItem hitem hsited1 (by omega)).bind fun x ts b2 hb2 hsited2 _ => ?_
    have hlen2 := hb2.length_eq
    exact (sits_moreItems hitem closing fuel hsited2 (by omega) (by omega)).map

end Items

section Ranges

variable {c₀ : Cursor} {past : List Token} {b : Buffer}

theorem sits_number (hb : Sited c₀ past b) (expected : String) :
    Sits c₀ (number expected) past b fun r ts _ => ts = [r.2] := by
  refine (sits_advance hb expected).bind fun t ts b1 _ hb1 ht => ?_
  subst ht
  split
  · exact sits_pure hb1 rfl
  · exact sits_fail hb1 List.getLast?_concat

theorem sits_rangeCount (hb : Sited c₀ past b) :
    Sits c₀ rangeCount past b fun _ _ _ => True := by
  refine (sits_number hb _).bind fun r ts b1 _ hb1 hr => ?_
  obtain ⟨v, t⟩ := r
  subst hr
  cases hv : v.whole? with
  | some n =>
    simp only [hv]
    exact sits_pure hb1 trivial
  | none =>
    simp only [hv, lengthFailure]
    split
    · exact sits_breakdown hb1 _
    · exact sits_fail hb1 List.getLast?_concat

theorem sits_rangeStep (hb : Sited c₀ past b) : Sits c₀ rangeStep past b fun _ _ _ => True := by
  refine (sits_accept? hb .semicolon).bind fun r ts b1 _ hb1 h => ?_
  rcases h with ⟨s, rfl, rfl, -⟩ | ⟨rfl, rfl, -⟩
  · exact (sits_number hb1 _).map
  · exact sits_pure hb1 trivial

theorem sits_range (hb : Sited c₀ past b) (hpast : past ≠ []) (pos : Position) :
    Sits c₀ (range pos) past b fun _ _ _ => True := by
  rw [range_eq]
  refine (sits_number hb _).bind fun r ts b1 _ hb1 _ => ?_
  refine (sits_advance hb1 _).bind fun u us b2 _ hb2 _ => ?_
  refine (sits_rangeCount hb2).bind fun m vs b3 _ hb3 _ => ?_
  refine (sits_rangeStep hb3).bind fun step ws b4 _ hb4 _ => ?_
  exact (sits_expectClosing hb4 (by simp [hpast]) _ _).map

end Ranges

/-- A token that is neither read as an operand nor an operator before one starts no expression. -/
theorem not_starts_of_misfit {t : Token} (hnumber : ∀ v, t.lexeme ≠ .number v)
    (hname : ∀ s, t.lexeme ≠ .name s) (hparen : t.lexeme ≠ .particle .leftParen)
    (hbracket : t.lexeme ≠ .particle .leftBracket)
    (hops : ∀ op ∈ unaryOperators, t.lexeme ≠ .particle op) : ¬ ItemRule.expression.Starts t := by
  intro hstarts
  rcases starts_expression_iff.1 hstarts with ⟨v, hv⟩ | ⟨s, hs⟩ | ⟨p, hp, ht⟩
  · exact hnumber v hv
  · exact hname s hs
  · simp only [openers, List.mem_cons, List.not_mem_nil, or_false] at hp
    rcases hp with rfl | rfl | rfl | rfl
    · exact hparen ht
    · exact hbracket ht
    · exact hops _ (by decide) ht
    · exact hops _ (by decide) ht

section Primary

variable {c₀ : Cursor} {past : List Token} {b : Buffer} {expr : Parser Expr} {n fuel : Nat}
  (hexpr : Seated c₀ expr n)

include hexpr

theorem sits_call (hfuel : n ≤ fuel) (hb : Sited c₀ past b) {word opening : Token}
    {us : List Token} (h : b.ahead.tokens = word :: opening :: us) (hn : us.length < n)
    (s : String) : Sits c₀ (call fuel expr s) past b fun _ _ _ => True := by
  refine (sits_advance_cons hb h _).bind fun t ts b1 _ hb1 h1 => ?_
  refine (sits_advance_cons hb1 h1.2.2 _).bind fun t' ts' b2 _ hb2 h2 => ?_
  exact (sits_delimited hexpr .rightBrace hb2 (h2.2.2 ▸ hn) hfuel).map

theorem sits_lambda (hfuel : n ≤ fuel) (hb : Sited c₀ past b) {word opening : Token}
    {us : List Token} (h : b.ahead.tokens = word :: opening :: us) (hn : us.length < n) :
    Sits c₀ (lambda fuel expr) past b fun _ _ _ => True := by
  refine (sits_advance_cons hb h _).bind fun t ts b1 _ hb1 h1 => ?_
  refine (sits_advance_cons hb1 h1.2.2 _).bind fun t' ts' b2 _ hb2 h2 => ?_
  rw [← h2.2.2] at hn
  refine (sits_delimited (seated_parameter n) .rightParen hb2 hn hfuel).bind
    fun ps vs b3 hb3 hsited3 _ => ?_
  have hlen := hb3.length_eq
  exact (hexpr hsited3 (by omega)).map

theorem sits_group (hb : Sited c₀ past b) {opening : Token} {us : List Token}
    (h : b.ahead.tokens = opening :: us) (hn : us.length < n) :
    Sits c₀ (group expr) past b fun _ _ _ => True := by
  refine (sits_advance_cons hb h _).bind fun t ts b1 _ hb1 h1 => ?_
  obtain ⟨-, rfl, h1⟩ := h1
  refine (hexpr hb1 (h1 ▸ hn)).bind fun inner vs b2 _ hb2 _ => ?_
  exact (sits_expectClosing hb2 (by simp) _ _).map

theorem sits_aggregate (hfuel : n ≤ fuel) (hb : Sited c₀ past b) {opening : Token}
    {us : List Token} (h : b.ahead.tokens = opening :: us) (hn : us.length < n) :
    Sits c₀ (aggregate fuel expr) past b fun _ _ _ => True := by
  refine (sits_advance_cons hb h _).bind fun t ts b1 _ hb1 h1 => ?_
  obtain ⟨-, rfl, h1⟩ := h1
  have hlook : Sits c₀ atRange (past ++ [opening]) b1 _ :=
    sits_nextTwo hb1 (fun _ hu => .inr (Token.answers_integer.1 hu)) .range
  refine hlook.bind_look fun r b2 hb2 hsited2 _ => ?_
  split
  · exact (sits_range hsited2 (by simp) t.pos).mono fun _ _ _ _ => trivial
  · have htokens : b2.ahead.tokens = us := hb2.tokens.symm.trans h1
    exact (sits_delimited hexpr .rightBracket hsited2 (htokens ▸ hn) hfuel).map

/-- Behind a name one may look at a second token. -/
theorem sits_named (hfuel : n ≤ fuel) (hb : Sited c₀ past b) {word : Token} {us : List Token}
    (h : b.ahead.tokens = word :: us) (hn : us.length ≤ n) (hsight : InSight b 1) (s : String) :
    Sits c₀ (named fuel expr s) past b fun _ _ _ => True := by
  refine (sits_check_second hb hsight .leftBrace).bind_look fun r b1 hb1 hsited1 h1 => ?_
  have htokens1 : b1.ahead.tokens = word :: us := hb1.tokens.symm.trans h
  obtain ⟨hsight1, hbrace⟩ := h1
  rw [htokens1, List.tail_cons] at hbrace
  by_cases hr : r = true
  · obtain ⟨opening, vs, rfl, -⟩ := exists_of_next (hbrace.1 hr)
    rw [if_pos hr]
    exact sits_call hexpr hfuel hsited1 htokens1 hn s
  rw [if_neg hr]
  have hat : Sits c₀ (atLambda s) past b1 fun _ _ _ => True := by
    unfold atLambda
    split
    · exact (sits_check_second hsited1 hsight1 .leftParen).mono fun _ _ _ _ => trivial
    · exact sits_pure hsited1 trivial
  have hlook := (hat.and_meets (meets_atLambda htokens1 s)).mono fun _ _ _ h => h.2
  refine hlook.bind_look fun r b2 _ hsited2 h2 => ?_
  obtain ⟨htokens2, hlambda⟩ := h2
  by_cases hr2 : r = true
  · obtain ⟨opening, vs, rfl, -⟩ := exists_of_next (hlambda.1 hr2).2
    rw [if_pos hr2]
    exact sits_lambda hexpr hfuel hsited2 htokens2 hn
  · rw [if_neg hr2]
    exact (sits_advance hsited2 _).map

/-- Where no operator comes first, a token that the rule refuses starts no expression.  It is the
only one that was looked at. -/
theorem sits_primary (hfuel : n ≤ fuel) (hb : Sited c₀ past b)
    (hn : b.ahead.tokens.length < n + 1) (hops : ∀ op ∈ unaryOperators, ¬ Next op b.ahead.tokens) :
    Sits c₀ (primary fuel expr) past b fun _ _ _ => True := by
  refine (sits_peek_first hb).bind_look fun next b1 hb1 hsited1 h => ?_
  obtain ⟨hfirst, hqueue, hfinish⟩ := h
  have hlen := hb1.length_eq
  rw [hb1.tokens, List.nil_append] at hops
  subst hfirst
  cases htokens : b1.ahead.tokens with
  | nil =>
    rw [htokens, List.head?_nil] at hqueue hfinish
    have hex := hfinish rfl
    refine sits_fault (x := .invalidExpression _ b1.cursor.pos none) rfl hsited1
      ⟨?_, hsited1.endsAt hex⟩
    rw [ahead, if_pos hex, List.head?_eq_none_iff.1 hqueue.symm]
  | cons t us =>
    rw [htokens, List.length_cons] at hlen
    rw [htokens] at hqueue hops
    simp only [List.head?_cons, Option.map_some]
    split
    · exact (sits_advance hsited1 _).map
    · next s hs =>
      have hsight : InSight b1 1 := .inr ⟨rfl, t, hqueue.symm, .inl ⟨s, Option.some.inj hs⟩⟩
      exact sits_named hexpr hfuel hsited1 htokens (by omega) hsight s
    · exact sits_group hexpr hsited1 htokens (by omega)
    · exact sits_aggregate hexpr hfuel hsited1 htokens (by omega)
    · next hnumber hname hparen hbracket =>
      -- No second token was looked at, so the cursor is where the text of this one ends.
      have hleads : ¬ t.Leads := by
        rintro (⟨s, hs⟩ | ⟨v, hv⟩)
        · exact hname s (congrArg some hs)
        · exact hnumber v (congrArg some hv)
      refine sits_fault (x := .invalidExpression _ b1.cursor.pos (some t)) rfl hsited1
        ⟨congrArg List.head? htokens, ?_, hsited1.tokenEndsAt hqueue.symm hleads⟩
      exact not_starts_of_misfit (fun v hv => hnumber v (congrArg some hv))
        (fun s hs => hname s (congrArg some hs)) (fun h => hparen (congrArg some h))
        (fun h => hbracket (congrArg some h)) fun op hop h => hops op hop (next_cons.2 h)

end Primary

section Operators

variable {c₀ : Cursor} {operand : Parser Expr} {n : Nat}

/-- Operators are passed before the operand is read, so it does not start with one. -/
theorem sits_unary (hoperand : ∀ {past : List Token} {b : Buffer}, Sited c₀ past b →
      b.ahead.tokens.length < n → (∀ op ∈ unaryOperators, ¬ Next op b.ahead.tokens) →
      Sits c₀ operand past b fun _ _ _ => True) :
    ∀ (fuel : Nat) {past : List Token} {b : Buffer}, Sited c₀ past b →
      b.ahead.tokens.length < n → b.ahead.tokens.length < fuel →
      Sits c₀ (unary operand fuel) past b fun _ _ _ => True := by
  intro fuel
  induction fuel with
  | zero =>
    intro past b _ _ hfuel
    exact absurd hfuel (Nat.not_lt_zero _)
  | succ fuel ih =>
    intro past b hb hn hfuel
    refine (sits_operator? hb unaryOperators).bind fun r ts b1 hb1 hsited1 h => ?_
    have hlen := hb1.length_eq
    rcases h with ⟨t, op, rfl, rfl, -, -⟩ | ⟨rfl, rfl, hops⟩
    · rw [List.length_singleton] at hlen
      exact (ih hsited1 (by omega) (by omega)).map
    · rw [List.length_nil] at hlen
      exact hoperand hsited1 (by omega) hops

theorem sits_chain (ops : List Particle) (hoperand : Seated c₀ operand n) :
    ∀ (fuel : Nat) (left : Expr) {past : List Token} {b : Buffer}, Sited c₀ past b →
      b.ahead.tokens.length < n → b.ahead.tokens.length < fuel →
      Sits c₀ (chain ops operand fuel left) past b fun _ _ _ => True := by
  intro fuel
  induction fuel with
  | zero =>
    intro left past b _ _ hfuel
    exact absurd hfuel (Nat.not_lt_zero _)
  | succ fuel ih =>
    intro left past b hb hn hfuel
    refine (sits_operator? hb ops).bind fun r ts b1 hb1 hsited1 h => ?_
    have hlen1 := hb1.length_eq
    rcases h with ⟨t, op, rfl, rfl, -, -⟩ | ⟨rfl, rfl, -⟩
    · rw [List.length_singleton] at hlen1
      refine (hoperand hsited1 (by omega)).bind fun right us b2 hb2 hsited2 _ => ?_
      have hlen2 := hb2.length_eq
      exact ih _ hsited2 (by omega) (by omega)
    · exact sits_pure hsited1 trivial

theorem seated_tier (t : Tier) {fuel : Nat} (hfuel : n ≤ fuel) (hoperand : Seated c₀ operand n) :
    Seated c₀ (tier fuel t operand) n := by
  intro past b hb hn
  refine (hoperand hb hn).bind fun left ts b1 hb1 hsited1 _ => ?_
  have hlen := hb1.length_eq
  exact sits_chain t.operators hoperand fuel left hsited1 (by omega) (by omega)

theorem seated_operation {fuel : Nat} (hfuel : n ≤ fuel) (hoperand : Seated c₀ operand n) :
    Seated c₀ (operation fuel operand) n := by
  have hterm := seated_tier .term hfuel (seated_tier .factor hfuel hoperand)
  exact seated_tier .equality hfuel (seated_tier .comparison hfuel (seated_tier .logic hfuel hterm))

/-- A colon that is missing is missed behind the branch that was read last. -/
theorem seated_ternary {condition branch : Parser Expr} (hcondition : Seated c₀ condition (n + 1))
    (hbranch : Seated c₀ branch n) (hsound : Sound condition Tier.equality.rank (n + 1))
    (hsound' : Sound branch 0 n) : Seated c₀ (ternary condition branch) (n + 1) := by
  intro past b hb hn
  refine ((hcondition hb hn).and_meets (hsound b hn)).bind fun c cs b1 hb1 hsited1 hc => ?_
  have hlen1 := hb1.length_eq
  refine (sits_accept? hsited1 .question).bind fun r ts b2 hb2 hsited2 h => ?_
  have hlen2 := hb2.length_eq
  rcases h with ⟨question, rfl, rfl, hq⟩ | ⟨rfl, rfl, -⟩
  · rw [List.length_singleton] at hlen2
    have hn2 : b2.ahead.tokens.length < n := by omega
    refine ((hbranch hsited2 hn2).and_meets (hsound' b2 hn2)).bind fun t us b3 hb3 hsited3 ht => ?_
    have hlen3 := hb3.length_eq
    refine (sits_accept? hsited3 .colon).bind fun r ks b4 hb4 hsited4 h => ?_
    have hlen4 := hb4.length_eq
    rcases h with ⟨colon, rfl, rfl, -⟩ | ⟨rfl, rfl, -⟩
    · exact (hbranch hsited4 (by omega)).map
    · -- Condition and branch were read up to what is ahead now: the looks have taken nothing.
      refine (sits_peek_first hsited4).bind_look fun found b5 hb5 hsited5 h => ?_
      obtain ⟨hfound, -, hfinish⟩ := h
      refine sits_fail hsited5
        ⟨hfound, fun hnone => ?_, past, c, cs, question, t, us, ?_, hq, ?_, ?_, rfl⟩
      · rw [ahead, if_pos (hfinish hnone)]
      · simp
      · have hc := hc.2
        rw [hb2.tokens, hb3.tokens, hb4.tokens, hb5.tokens] at hc
        exact hc
      · have ht := ht.2
        rw [hb4.tokens, hb5.tokens] at ht
        exact ht
  · exact sits_pure hsited2 trivial

end Operators

/-- Every expression inside an expression has at least one token less to read and one unit of fuel
less. -/
theorem seated_expression {c₀ : Cursor} (fuel : Nat) : Seated c₀ (expression fuel) fuel := by
  induction fuel with
  | zero =>
    intro past b _ hb
    exact absurd hb (Nat.not_lt_zero _)
  | succ fuel ih =>
    have hunary : Seated c₀ (unary (primary (fuel + 1) (expression fuel)) (fuel + 1)) (fuel + 1) :=
      fun past b hb hn => sits_unary (sits_primary ih (Nat.le_succ fuel)) (fuel + 1) hb hn hn
    have hsound : Sound (unary (primary (fuel + 1) (expression fuel)) (fuel + 1))
        Expr.unaryRank (fuel + 1) := fun b hb =>
      meets_unary (sound_primary (sound_expression fuel) (Nat.le_succ fuel)) (fuel + 1) b hb hb
    exact seated_ternary (seated_operation (Nat.le_refl _) hunary) ih
      (sound_operation (Nat.le_refl _) hsound) (sound_expression fuel)

/-! ## Statements -/

section Statements

variable {c₀ : Cursor} {past : List Token} {b : Buffer}

theorem sits_wholeExpression (hb : Sited c₀ past b) :
    Sits c₀ wholeExpression past b fun _ _ _ => True :=
  seated_expression (b.weight + 1) hb (Nat.lt_succ_of_le b.length_ahead_le_weight)

theorem sits_assignment (hb : Sited c₀ past b) :
    Sits c₀ assignment past b fun _ _ _ => True := by
  refine (sits_advance hb _).bind fun target ts b1 _ hb1 htarget => ?_
  subst htarget
  split
  · refine (sits_advance hb1 _).bind fun sign us b2 _ hb2 _ => ?_
    exact (sits_wholeExpression hb2).map
  · exact sits_fail hb1 List.getLast?_concat

theorem sits_bareStatement (hb : Sited c₀ past b) :
    Sits c₀ bareStatement past b fun _ ts _ => ts ≠ [] := by
  have hrule : Sits c₀ bareStatement past b fun _ _ _ => True := by
    have hlook : Sits c₀ atAssignment past b _ :=
      sits_nextTwo hb (fun _ ht => .inl (Token.answers_identifier.1 ht)) .assign
    refine hlook.bind_look fun r b1 _ hb1 _ => ?_
    split
    · exact sits_assignment hb1
    · exact (sits_wholeExpression hb1).map
  exact (hrule.and_meets (meets_bareStatement b)).mono fun _ _ _ h => h.2.reads.ne_nil

/-- The name of the source does not move a fault. -/
theorem sits_statement (hb : Sited c₀ past b) :
    Sits c₀ statement past b fun _ ts _ => ts ≠ [] := by
  have hbare := sits_bareStatement hb
  unfold Sits at hbare ⊢
  unfold statement
  cases hrun : bareStatement b with
  | ok s b' =>
    rw [hrun] at hbare
    exact hbare
  | error f b' =>
    rw [hrun] at hbare
    obtain ⟨ts, hconsumes, hsited, hanchored⟩ := hbare
    refine ⟨ts, hconsumes, hsited, fun e he => ?_⟩
    cases f with
    | grammatical e' =>
      cases he
      exact hanchored e' rfl
    | lexical e' | breakdown e' | beforeBuffer e' | beyondCapacity e' => cases he

theorem sits_statements (fuel : Nat) {past : List Token} {b : Buffer} (hb : Sited c₀ past b)
    (hfuel : b.ahead.tokens.length < fuel) :
    Sits c₀ (statements fuel) past b fun _ _ _ => True := by
  induction fuel generalizing past b with
  | zero => exact absurd hfuel (Nat.not_lt_zero _)
  | succ fuel ih =>
    refine (sits_isEnd hb).bind fun r ts b1 hb1 hsited1 h => ?_
    subst h
    have hlen1 := hb1.length_eq
    rw [List.length_nil] at hlen1
    split
    · exact sits_pure hsited1 trivial
    · refine (sits_statement hsited1).bind fun s us b2 hb2 hsited2 h => ?_
      have hlen2 := hb2.length_eq
      have hpos : 0 < us.length := List.length_pos_iff.2 h
      exact (ih hsited2 (by omega)).map

theorem sits_program (hb : Sited c₀ past b) : Sits c₀ program past b fun _ _ _ => True :=
  sits_statements (b.weight + 1) hb (Nat.lt_succ_of_le b.length_ahead_le_weight)

/-- Every step of a session keeps to the source. -/
theorem sits_step (hb : Sited c₀ past b) (s : Session.Step) :
    Sits c₀ (Session.step · s) past b fun _ _ _ => True := by
  cases s with
  | statement => exact (sits_statement hb).map
  | isEnd => exact (sits_isEnd hb).map
  | program => exact (sits_program hb).map
  | assignment => exact (sits_assignment hb).map

end Statements

end Grammar

/-! ## Sessions -/

/-- The end of input of the source is at `pos`. -/
def Config.EndsAt (c : Config) (source : String) (pos : Position) : Prop :=
  ∃ ts t, tokenize source c.filename c.convert false = .ok (ts ++ [t]) ∧ t.isEnd = true ∧
    pos = t.pos

/-- The fault is where it says in the source: the tokens `past` of the source have been consumed,
and `next` have not. -/
structure ParseFault.Anchored (c : Config) (source : String) (past next : List Token)
    (x : ParseFault) : Prop where
  /-- A token that was taken is the last one, and the fault is there. -/
  taken : x.code ∈ [.P001, .P003, .P004, .P008] → ∀ t, x.token? = some t →
    past.getLast? = some t ∧ x.pos = t.pos
  /-- A colon is missing behind a branch, and the fault is where that branch is. -/
  missing : x.code = .P002 → x.token? = next.head? ∧
    (x.token? = none → ∃ ts, tokenize source c.filename c.convert false = .ok ts ∧
      significant ts = past) ∧
    ∀ pos, EndsInBranch past next pos ↔ pos = x.pos
  /-- A token that is refused starts no expression, and the fault is where its text ends. -/
  refused : x.code = .P005 → x.token? = next.head? ∧
    (∀ t, x.token? = some t → (∀ e ts, ¬ Expr.WellRead e (t :: ts)) ∧
      t.EndsAt source.toList x.pos) ∧
    (x.token? = none → c.EndsAt source x.pos)
  /-- A delimiter that is open at the end is missed where the last token is. -/
  unclosed : x.code = .P004 → x.token? = none →
    ∃ ts, tokenize source c.filename c.convert false = .ok ts ∧
      (significant ts).getLast?.map Token.pos = some x.pos
  /-- The source ends too early, and the fault is at that end. -/
  ended : x.code = .P007 → x.token? = none ∧ c.EndsAt source x.pos

section Sources

variable {c : Config} {source : String} {past : List Token} {b : Buffer}

theorem Config.endsAt_of_cursor {pos : Position}
    (h : (Cursor.start source c.filename c.convert).EndsAt pos) : c.EndsAt source pos := by
  obtain ⟨us, t, c', hrun, hend, hpos⟩ := h
  refine ⟨us, t, ?_, hend, hpos⟩
  rw [tokenize, hrun]

/-- Where nothing is ahead, all tokens of the source have been consumed. -/
theorem Sited.tokenize (h : Sited (.start source c.filename c.convert) past b)
    (hnil : b.ahead.tokens = []) (hfailure : b.ahead.failure? = none) :
    ∃ ts, tokenize source c.filename c.convert false = .ok ts ∧ significant ts = past := by
  obtain ⟨ts, hts, hsignificant⟩ := tokenize_of_ahead (h.failure.symm.trans hfailure) false
  refine ⟨ts, hts, ?_⟩
  rw [hsignificant, h.tokens, hnil, List.append_nil]

theorem Sited.anchored (h : Sited (.start source c.filename c.convert) past b) {x : ParseFault}
    (hx : x.AnchoredAt (.start source c.filename c.convert) past b.ahead) :
    x.Anchored c source past b.ahead.tokens where
  taken hcode t ht := by
    cases x with
    | unexpectedToken _ found | unexpectedComma found _ | invalidRange _ found =>
      cases ht
      exact ⟨hx, rfl⟩
    | unclosed message pos found =>
      cases ht
      exact hx
    | _ => simp [ParseFault.code] at hcode
  missing hcode := by
    cases x with
    | missingToken message pos found =>
      obtain ⟨hfound, hfinish, hbranch⟩ := hx
      refine ⟨hfound, fun hnone => ?_, fun pos' => ⟨fun h' => h'.unique hbranch, ?_⟩⟩
      · exact h.tokenize (List.head?_eq_none_iff.1 (hfound.symm.trans hnone)) (hfinish hnone)
      · rintro rfl
        exact hbranch
    | _ => cases hcode
  refused hcode := by
    cases x with
    | invalidExpression message pos found =>
      cases found with
      | none =>
        obtain ⟨hnil, hends⟩ := hx
        refine ⟨by rw [hnil]; rfl, fun t ht => ?_, fun _ => Config.endsAt_of_cursor hends⟩
        cases ht
      | some t =>
        obtain ⟨hhead, hstarts, hends⟩ := hx
        refine ⟨hhead.symm, fun u hu => ?_, nofun⟩
        cases hu
        exact ⟨fun e ts hread => hstarts ⟨e, ts, [], hread.parsed⟩, hends⟩
    | _ => cases hcode
  unclosed hcode hnone := by
    cases x with
    | unclosed message pos found =>
      cases hnone
      obtain ⟨hnil, hlast⟩ := hx
      obtain ⟨ts, hts, rfl⟩ :=
        h.tokenize (congrArg Ahead.tokens hnil) (congrArg Ahead.failure? hnil)
      exact ⟨ts, hts, hlast⟩
    | _ => cases hcode
  ended hcode := by
    cases x with
    | unexpectedEnd expected pos => exact ⟨rfl, Config.endsAt_of_cursor hx.2⟩
    | _ => cases hcode

end Sources

namespace Session

/-- Every state of a run of steps is a place in the source. -/
theorem exists_sited {c : Config} (hvalid : c.Valid) (source : String) (steps : List Step) :
    ∀ b ∈ statesOf Session.step (c.session source) steps,
      ∃ past, Sited (.start source c.filename c.convert) past b := by
  have hallowed : Allowed Session.step (fun _ _ => True) (c.session source) steps :=
    allowed_of_forall (fun _ _ => trivial) _ _
  refine forall_statesOf _ (fun b s h _ => ?_) _ steps
    ⟨[], .start source c.filename c.convert hvalid⟩ hallowed
  obtain ⟨past, hb⟩ := h
  exact (Grammar.sits_step hb s).sited

/-- Whenever a statement ends with a fault, also after earlier failures, the fault is where it
says: at the last token that was consumed, at the branch that no colon follows, right behind the
text of the first token that was not consumed, at the last token of the source, or at its end. -/
theorem statement_anchored {c : Config} (hvalid : c.Valid) (source : String) (steps : List Step)
    {b b' : Buffer} (hb : b ∈ statesOf Session.step (c.session source) steps) {e : ParseError}
    (h : Session.step b .statement = .error (.grammatical e) b') :
    ∃ past, c.scanned source = past ++ b'.ahead.tokens ∧ b'.consumed = past.length ∧
      e.fault.Anchored c source past b'.ahead.tokens := by
  obtain ⟨past, hsited⟩ := exists_sited hvalid source steps b hb
  obtain ⟨us, hus, hanchored⟩ := (Grammar.sits_step hsited .statement).anchored h
  exact ⟨us, hus.tokens, hus.consumed, hus.anchored hanchored⟩

/-- A parenthesis that is not closed, and behind it a choice without its colon. -/
def brokenStatements : String := "(a b c ? d e"

theorem statement_anchored_resumed :
    ∃ (b b' : Buffer) (e : ParseError), nearConfig.Valid ∧
      b ∈ statesOf Session.step (nearConfig.session brokenStatements) [.statement] ∧
      Session.step b .statement = .error (.grammatical e) b' ∧
      e.fault.code = .P002 ∧ e.fault.pos = ⟨0, 9⟩ ∧
      ∃ past, nearConfig.scanned brokenStatements = past ++ b'.ahead.tokens ∧
        b'.consumed = past.length ∧
        e.fault.Anchored nearConfig brokenStatements past b'.ahead.tokens := by
  let b := stateOf (Session.step (nearConfig.session brokenStatements) .statement)
  have hb : b ∈ statesOf Session.step (nearConfig.session brokenStatements) [.statement] := by
    rw [statesOf_cons]
    exact List.mem_cons_of_mem _ List.mem_cons_self
  -- Trees have no decidable equality, so they are forgotten before the outcome is compared.
  have hmissing : (answerOf (Session.step b .statement)).map (fun _ => ()) = .error (.grammatical
      ⟨.missingToken "Expected a colon operator" ⟨0, 9⟩ (some ⟨.name "e", ⟨0, 11⟩, "e"⟩),
        anonymous⟩) := by
    decide +kernel
  cases h : Session.step b .statement with
  | ok a b' =>
    rw [h] at hmissing
    cases hmissing
  | error f b' =>
    rw [h] at hmissing
    cases hmissing
    exact ⟨b, b', _, Int.le_refl _, hb, h, rfl, rfl,
      statement_anchored (Int.le_refl _) brokenStatements [.statement] hb h⟩

end Session

end ExprFront
