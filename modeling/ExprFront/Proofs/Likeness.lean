import ExprFront.Proofs.Soundness

/-!
# Parsing tokens that are alike

What the grammar does depends on little of a token: on its class, on which particle it is, on
whether a name is the word that starts a function, and on whether a number can be the length
of a range.  So two sources whose tokens agree in this much, one by one, are parsed in
lockstep.  Either both are programs, with trees that correspond node by node, or both fail
with the same fault about corresponding tokens.  There is one exception: of two corresponding
lengths that are no natural numbers one may be undefined (`Likeness.OddLengths`), and that parse
breaks down at its length.

* A `Likeness` says what corresponds to what: tokens, values, names, positions, lengths.  It
  carries the proof that corresponding tokens agree in what the grammar looks at.
* `Expr.Like` and `ParseFault.Like` extend a likeness to trees and faults.  Trees that are
  alike up to positions become equal once positions are mapped away (`Expr.Like.mapPos_eq`).
* `Grammar.Lockstep` relates two rules.  It composes along `>>=` (`Lockstep.bind`), so each
  rule is in lockstep with itself because its parts are.

The fuel of the two runs may differ.  A run that is out of fuel corresponds to everything
(`Grammar.Together`); that this does not happen is known from the contracts of the rules and
used only at the end.

Main result: `parseProgram_likeAhead`.
-/

namespace ExprFront

open Grammar (lambdaWord)

/-! ## Likenesses -/

/-- Lexemes of one class, with values and names that correspond. -/
inductive Lexeme.Like (V : Value → Value → Prop) (N : String → String → Prop) :
    Lexeme → Lexeme → Prop where
  | number {v v' : Value} (h : V v v') : Like V N (.number v) (.number v')
  | name {s s' : String} (h : N s s') : Like V N (.name s) (.name s')
  | particle (p : Particle) : Like V N (.particle p) (.particle p)
  | skip : Like V N .skip .skip
  | endOfInput : Like V N .endOfInput .endOfInput

/-- What corresponds to what in two sources. -/
structure Likeness where
  token : Token → Token → Prop
  value : Value → Value → Prop
  name : String → String → Prop
  place : Position → Position → Prop
  /-- Which lengths of ranges correspond. -/
  length : Nat → Nat → Prop
  lexeme_of_token : ∀ {t t' : Token}, token t t' → Lexeme.Like value name t.lexeme t'.lexeme
  place_of_token : ∀ {t t' : Token}, token t t' → place t.pos t'.pos
  word_of_name : ∀ {s s' : String}, name s s' → (s = lambdaWord ↔ s' = lambdaWord)
  whole_of_value : ∀ {v v' : Value}, value v v' → Option.Rel length v.whole? v'.whole?
  present_of_value : ∀ {v v' : Value}, value v v' → Option.Rel value v.present? v'.present?

variable {L : Likeness}

theorem Lexeme.Like.refl (l : Lexeme) : Lexeme.Like Eq Eq l l := by
  cases l with
  | number v => exact .number rfl
  | name s => exact .name rfl
  | particle p => exact .particle p
  | skip => exact .skip
  | endOfInput => exact .endOfInput

theorem Lexeme.Like.answers_eq {V : Value → Value → Prop} {N : String → String → Prop}
    {l l' : Lexeme} (h : Lexeme.Like V N l l') (k : Kind) : l.answers k = l'.answers k := by
  cases h <;> rfl

/-- Corresponding tokens answer to the same kinds. -/
theorem Likeness.answers_eq {t t' : Token} (h : L.token t t') (k : Kind) :
    t.answers k = t'.answers k :=
  (L.lexeme_of_token h).answers_eq k

theorem Likeness.isEnd_eq {t t' : Token} (h : L.token t t') : t.isEnd = t'.isEnd := by
  have hlexeme := L.lexeme_of_token h
  unfold Token.isEnd
  generalize t.lexeme = l, t'.lexeme = l' at hlexeme ⊢
  cases hlexeme <;> rfl

/-- Two corresponding tokens are numbers, not natural ones, and at least one is undefined. -/
structure Likeness.OddLengths (L : Likeness) (t t' : Token) (v v' : Value) : Prop where
  token : L.token t t'
  left : t.lexeme = .number v
  right : t'.lexeme = .number v'
  whole_left : v.whole? = none
  whole_right : v'.whole? = none
  undefined : v.isUndefined = true ∨ v'.isUndefined = true

/-- Trees of one shape, with leaves and positions that correspond. -/
inductive Expr.Like (L : Likeness) : Expr → Expr → Prop where
  | number {v v' : Value} {p p' : Position} (hv : L.value v v') (hp : L.place p p') :
      Like L (.number v p) (.number v' p')
  | name {s s' : String} {p p' : Position} (hs : L.name s s') (hp : L.place p p') :
      Like L (.name s p) (.name s' p')
  | group {e e' : Expr} {p p' : Position} (he : Like L e e') (hp : L.place p p') :
      Like L (.group e p) (.group e' p')
  | unary {e e' : Expr} {p p' : Position} (op : Particle) (he : Like L e e')
      (hp : L.place p p') : Like L (.unary op e p) (.unary op e' p')
  | binary {l l' r r' : Expr} {p p' : Position} (op : Particle) (hl : Like L l l')
      (hr : Like L r r') (hp : L.place p p') : Like L (.binary op l r p) (.binary op l' r' p')
  | ternary {c c' t t' e e' : Expr} {p p' : Position} (hc : Like L c c') (ht : Like L t t')
      (he : Like L e e') (hp : L.place p p') : Like L (.ternary c t e p) (.ternary c' t' e' p')
  | call {s s' : String} {args args' : List Expr} {p p' : Position} {R : Expr → Expr → Prop}
      (hs : L.name s s') (hargs : List.Forall₂ R args args')
      (hR : ∀ e e', R e e' → Like L e e') (hp : L.place p p') :
      Like L (.call s args p) (.call s' args' p')
  | lambda {ps ps' : List String} {e e' : Expr} {p p' : Position}
      (hps : List.Forall₂ L.name ps ps') (he : Like L e e') (hp : L.place p p') :
      Like L (.lambda ps e p) (.lambda ps' e' p')
  | list {es es' : List Expr} {p p' : Position} {R : Expr → Expr → Prop}
      (hes : List.Forall₂ R es es') (hR : ∀ e e', R e e' → Like L e e') (hp : L.place p p') :
      Like L (.list es p) (.list es' p')
  | range {v v' : Value} {n n' : Nat} {w w' : Option Value} {p p' : Position}
      (hv : L.value v v') (hn : L.length n n') (hw : Option.Rel L.value w w')
      (hp : L.place p p') : Like L (.range v n w p) (.range v' n' w' p')

theorem Expr.Like.pos {e e' : Expr} (h : Expr.Like L e e') : L.place e.pos e'.pos := by
  cases h <;> assumption

/-- Statements of one form, with parts that correspond. -/
inductive Stmt.Like (L : Likeness) : Stmt → Stmt → Prop where
  | assign {s s' : String} {e e' : Expr} {p p' : Position} (hs : L.name s s')
      (he : Expr.Like L e e') (hp : L.place p p') : Like L (.assign s e p) (.assign s' e' p')
  | expression {e e' : Expr} {p p' : Position} (he : Expr.Like L e e') (hp : L.place p p') :
      Like L (.expression e p) (.expression e' p')

/-! ## Likenesses up to positions -/

theorem optionRel_eq_refl {α : Type} (r : Option α) : Option.Rel Eq r r := by
  cases r with
  | none => exact .none
  | some a => exact .some rfl

/-- Corresponding tokens have one lexeme, and only positions may differ. -/
def Likeness.placed (token : Token → Token → Prop) (place : Position → Position → Prop)
    (hlexeme : ∀ {t t' : Token}, token t t' → t.lexeme = t'.lexeme)
    (hplace : ∀ {t t' : Token}, token t t' → place t.pos t'.pos) : Likeness where
  token := token
  value := Eq
  name := Eq
  place := place
  length := Eq
  lexeme_of_token h := by
    rw [hlexeme h]
    exact Lexeme.Like.refl _
  place_of_token := hplace
  word_of_name h := by rw [h]
  whole_of_value h := h ▸ optionRel_eq_refl _
  present_of_value h := h ▸ optionRel_eq_refl _

section Placed

variable {token : Token → Token → Prop} {place : Position → Position → Prop}
  {hlexeme : ∀ {t t' : Token}, token t t' → t.lexeme = t'.lexeme}
  {hplace : ∀ {t t' : Token}, token t t' → place t.pos t'.pos} {f g : Position → Position}

/-- Items that correspond under two functions have the same images. -/
theorem map_eq_map_of_forall₂ {α β γ : Type} {R : α → β → Prop} {f : α → γ} {g : β → γ}
    {xs : List α} {ys : List β} (h : List.Forall₂ R xs ys) (hR : ∀ x y, R x y → f x = g y) :
    xs.map f = ys.map g := by
  rw [← List.forall₂_eq_eq_eq, List.forall₂_map_left_iff, List.forall₂_map_right_iff]
  exact h.imp hR

/-- Trees that are alike are the same once positions that correspond are mapped to one. -/
theorem Expr.Like.mapPos_eq (hfg : ∀ p p', place p p' → f p = g p') {e e' : Expr}
    (h : Expr.Like (.placed token place hlexeme hplace) e e') : e.mapPos f = e'.mapPos g := by
  induction h with
  | number hv hp =>
    cases hv
    rw [mapPos, mapPos, hfg _ _ hp]
  | name hs hp =>
    cases hs
    rw [mapPos, mapPos, hfg _ _ hp]
  | group _ hp ih => rw [mapPos, mapPos, ih, hfg _ _ hp]
  | unary op _ hp ih => rw [mapPos, mapPos, ih, hfg _ _ hp]
  | binary op _ _ hp ihl ihr => rw [mapPos, mapPos, ihl, ihr, hfg _ _ hp]
  | ternary _ _ _ hp ihc iht ihe => rw [mapPos, mapPos, ihc, iht, ihe, hfg _ _ hp]
  | call hs hargs _ hp ih =>
    cases hs
    rw [mapPos, mapPos, mapPosEach_eq_map, mapPosEach_eq_map, map_eq_map_of_forall₂ hargs ih,
      hfg _ _ hp]
  | lambda hps _ hp ih =>
    have hsame : _ = _ := List.forall₂_eq_eq_eq ▸ hps
    rw [mapPos, mapPos, ih, hfg _ _ hp, hsame]
  | list hes _ hp ih =>
    rw [mapPos, mapPos, mapPosEach_eq_map, mapPosEach_eq_map, map_eq_map_of_forall₂ hes ih,
      hfg _ _ hp]
  | range hv hn hw hp =>
    cases hv
    cases hn
    cases hw with
    | none => rw [mapPos, mapPos, hfg _ _ hp]
    | some hw =>
      cases hw
      rw [mapPos, mapPos, hfg _ _ hp]

theorem Stmt.Like.mapPos_eq (hfg : ∀ p p', place p p' → f p = g p') {s s' : Stmt}
    (h : Stmt.Like (.placed token place hlexeme hplace) s s') : s.mapPos f = s'.mapPos g := by
  cases h with
  | assign hs he hp =>
    cases hs
    rw [mapPos, mapPos, he.mapPos_eq hfg, hfg _ _ hp]
  | expression he hp => rw [mapPos, mapPos, he.mapPos_eq hfg, hfg _ _ hp]

end Placed

/-! ## Faults and buffers -/

/-- The same fault about corresponding tokens. -/
inductive ParseFault.Like (L : Likeness) : ParseFault → ParseFault → Prop where
  | unexpectedToken {t t' : Token} (expected : String) (ht : L.token t t') :
      Like L (.unexpectedToken expected t) (.unexpectedToken expected t')
  | missingToken {t t' : Option Token} (message : String) (p p' : Position)
      (ht : Option.Rel L.token t t') :
      Like L (.missingToken message p t) (.missingToken message p' t')
  | unexpectedComma {t t' : Token} (trailing : Bool) (ht : L.token t t') :
      Like L (.unexpectedComma t trailing) (.unexpectedComma t' trailing)
  | unclosed {t t' : Option Token} (message : String) (p p' : Position)
      (ht : Option.Rel L.token t t') : Like L (.unclosed message p t) (.unclosed message p' t')
  | invalidExpression {t t' : Option Token} (message : String) (p p' : Position)
      (ht : Option.Rel L.token t t') :
      Like L (.invalidExpression message p t) (.invalidExpression message p' t')
  | invalidTarget {t t' : Token} (ht : L.token t t') :
      Like L (.invalidTarget t) (.invalidTarget t')
  | unexpectedEnd (expected : String) (p p' : Position) :
      Like L (.unexpectedEnd expected p) (.unexpectedEnd expected p')
  | invalidRange {t t' : Token} (reason : String) (ht : L.token t t') :
      Like L (.invalidRange reason t) (.invalidRange reason t')

namespace ParseFault.Like

variable {x x' : ParseFault}

theorem code_eq (h : ParseFault.Like L x x') : x.code = x'.code := by
  cases h <;> rfl

theorem message_eq (h : ParseFault.Like L x x') : x.message = x'.message := by
  cases h <;> rfl

theorem token? (h : ParseFault.Like L x x') : Option.Rel L.token x.token? x'.token? := by
  cases h with
  | unexpectedToken _ ht | unexpectedComma _ ht | invalidTarget ht | invalidRange _ ht =>
    exact .some ht
  | missingToken _ _ _ ht | unclosed _ _ _ ht | invalidExpression _ _ _ ht => exact ht
  | unexpectedEnd => exact .none

/-- Where corresponding tokens have one text, the advice is the same too. -/
theorem help?_eq (htext : ∀ t t', L.token t t' → t.text = t'.text)
    (h : ParseFault.Like L x x') : x.help? = x'.help? := by
  cases h with
  | unexpectedToken expected ht => simp only [help?, htext _ _ ht]
  | missingToken _ _ _ ht =>
    cases ht with
    | none => rfl
    | some ht => simp only [help?, Option.map_some, htext _ _ ht]
  | invalidExpression _ _ _ ht =>
    cases ht with
    | none => rfl
    | @some t t' ht =>
      simp only [help?, htext _ _ ht, L.isEnd_eq ht]
  | unexpectedComma | unclosed | invalidTarget | unexpectedEnd | invalidRange => rfl

end ParseFault.Like

/-- Corresponding tokens lie ahead of two buffers, which both reach as far as the grammar
looks, and scanning fails in neither. -/
structure Buffer.LikeAhead (L : Likeness) (b b' : Buffer) : Prop where
  tokens : List.Forall₂ L.token b.ahead.tokens b'.ahead.tokens
  failure_left : b.ahead.failure? = none
  failure_right : b'.ahead.failure? = none
  capacity_left : 2 ≤ b.capacity
  capacity_right : 2 ≤ b'.capacity

namespace Buffer.LikeAhead

variable {b b' b₁ b₁' : Buffer}

/-- Two buffers stay alike when as much is consumed of the one as of the other. -/
theorem of_consumes (h : Buffer.LikeAhead L b b') {ts ts' : List Token} (h₁ : b.Consumes ts b₁)
    (h₁' : b'.Consumes ts' b₁') (hlength : ts.length = ts'.length) :
    Buffer.LikeAhead L b₁ b₁' where
  tokens := by
    have hall := h.tokens
    rw [h₁.tokens, h₁'.tokens] at hall
    have hdrop := List.forall₂_drop ts.length hall
    rwa [List.drop_left, hlength, List.drop_left] at hdrop
  failure_left := h₁.failure.trans h.failure_left
  failure_right := h₁'.failure.trans h.failure_right
  capacity_left := h₁.capacity ▸ h.capacity_left
  capacity_right := h₁'.capacity ▸ h.capacity_right

theorem getElem? (h : Buffer.LikeAhead L b b') (k : Nat) :
    Option.Rel L.token b.ahead.tokens[k]? b'.ahead.tokens[k]? := by
  have hlength := h.tokens.length_eq
  by_cases hk : k < b.ahead.tokens.length
  · rw [List.getElem?_eq_getElem hk, List.getElem?_eq_getElem (hlength ▸ hk)]
    exact .some (h.tokens.get hk (hlength ▸ hk))
  · rw [List.getElem?_eq_none (by omega), List.getElem?_eq_none (by omega)]
    exact .none

end Buffer.LikeAhead

/-- Nothing is unreadable where scanning does not fail and the buffer reaches far enough. -/
theorem Buffer.not_unreadable {b : Buffer} {offset : Int} {f : Failure}
    (hfailure : b.ahead.failure? = none) (hcapacity : offset < b.capacity) :
    ¬ b.Unreadable offset f := by
  rintro (⟨hf, -⟩ | ⟨hc, -⟩)
  · rw [hfailure] at hf
    cases hf
  · omega

namespace Grammar

open Buffer

/-! ## Lockstep -/

/-- The two outcomes correspond: both are answers, or both are faults, or both are failures at
lengths that are no natural numbers.  An outcome that is out of fuel corresponds to everything. -/
inductive Together {α : Type} (L : Likeness) (R : α → α → Prop) :
    Outcome Buffer α → Outcome Buffer α → Prop where
  | answers {a a' : α} {b b' : Buffer} (ha : R a a') (hb : Buffer.LikeAhead L b b') :
      Together L R (.ok a b) (.ok a' b')
  | faults {x x' : ParseFault} {file file' : String} {b b' : Buffer}
      (hx : ParseFault.Like L x x') :
      Together L R (.error (.grammatical ⟨x, file⟩) b) (.error (.grammatical ⟨x', file'⟩) b')
  | lengths {t t' : Token} {v v' : Value} {file file' : String} {b b' : Buffer}
      (ht : L.OddLengths t t' v v') :
      Together L R (.error (lengthFailure file v t) b) (.error (lengthFailure file' v' t') b')
  | stuckLeft {p : Position} {file : String} {b : Buffer} {r : Outcome Buffer α} :
      Together L R (.error (.grammatical ⟨.noProgress p, file⟩) b) r
  | stuckRight {p : Position} {file : String} {b : Buffer} {r : Outcome Buffer α} :
      Together L R r (.error (.grammatical ⟨.noProgress p, file⟩) b)

/-- From buffers that are alike ahead, the two rules come to outcomes that correspond. -/
def Lockstep {α : Type} (L : Likeness) (R : α → α → Prop) (p p' : Parser α) : Prop :=
  ∀ ⦃b b' : Buffer⦄, Buffer.LikeAhead L b b' → Together L R (p b) (p' b')

section Composition

variable {α β : Type} {R : α → α → Prop} {S : β → β → Prop}

theorem lockstep_pure {a a' : α} (h : R a a') : Lockstep L R (pure a) (pure a') :=
  fun _ _ hb => .answers h hb

/-- Rules in lockstep compose. -/
theorem Lockstep.bind {p p' : Parser α} {f f' : α → Parser β} (hp : Lockstep L R p p')
    (hf : ∀ a a', R a a' → Lockstep L S (f a) (f' a')) :
    Lockstep L S (p >>= f) (p' >>= f') := by
  intro b b' hb
  have hrun : (p >>= f) b = EStateM.bind p f b := rfl
  have hrun' : (p' >>= f') b' = EStateM.bind p' f' b' := rfl
  have hboth := hp hb
  rw [hrun, hrun', EStateM.bind, EStateM.bind]
  generalize p b = r, p' b' = r' at hboth ⊢
  cases hboth with
  | answers ha hb₁ => exact hf _ _ ha hb₁
  | faults hx => exact .faults hx
  | lengths ht => exact .lengths ht
  | stuckLeft => exact .stuckLeft
  | stuckRight => exact .stuckRight

theorem lockstep_stuck_left (p : Parser α) : Lockstep L R stuck p :=
  fun _ _ _ => .stuckLeft

theorem lockstep_stuck_right (p : Parser α) : Lockstep L R p stuck :=
  fun _ _ _ => .stuckRight

theorem lockstep_fail {x x' : ParseFault} (h : ParseFault.Like L x x') :
    Lockstep L R (fail x) (fail x') :=
  fun _ _ _ => .faults h

/-- Positions of the cursor need not correspond: nothing but faults shows them. -/
theorem lockstep_cursorPos : Lockstep L (fun _ _ => True) cursorPos cursorPos :=
  fun _ _ hb => .answers trivial hb

end Composition

/-! ## Looks and single tokens -/

theorem lockstep_peek {offset : Int} (h0 : 0 ≤ offset) (h1 : offset ≤ 1) :
    Lockstep L (Option.Rel L.token) (peek offset) (peek offset) := by
  intro b b' hb
  have hpeek := b.peek_ahead h0
  have hpeek' := b'.peek_ahead h0
  have hleft := hb.capacity_left
  have hright := hb.capacity_right
  cases hp : peek offset b with
  | error f b₁ =>
    rw [hp] at hpeek
    exact absurd hpeek.2 (not_unreadable hb.failure_left (by omega))
  | ok r b₁ =>
    cases hp' : peek offset b' with
    | error f b₁' =>
      rw [hp'] at hpeek'
      exact absurd hpeek'.2 (not_unreadable hb.failure_right (by omega))
    | ok r' b₁' =>
      rw [hp] at hpeek
      rw [hp'] at hpeek'
      obtain ⟨hsame, rfl, -⟩ := hpeek
      obtain ⟨hsame', rfl, -⟩ := hpeek'
      exact .answers (hb.getElem? _) (hb.of_consumes hsame hsame' rfl)

theorem lockstep_pop : Lockstep L (Option.Rel L.token) pop pop := by
  intro b b' hb
  have hpop := b.pop_ahead
  have hpop' := b'.pop_ahead
  have hleft := hb.capacity_left
  have hright := hb.capacity_right
  have htokens := hb.tokens
  cases hp : pop b with
  | error f b₁ =>
    rw [hp] at hpop
    exact absurd hpop.2 (not_unreadable hb.failure_left (by omega))
  | ok r b₁ =>
    cases hp' : pop b' with
    | error f b₁' =>
      rw [hp'] at hpop'
      exact absurd hpop'.2 (not_unreadable hb.failure_right (by omega))
    | ok r' b₁' =>
      rw [hp] at hpop
      rw [hp'] at hpop'
      cases r with
      | none =>
        cases r' with
        | none => exact .answers .none (hb.of_consumes hpop.1 hpop'.1 rfl)
        | some t' =>
          rw [hpop.2.1, hpop'.tokens] at htokens
          cases htokens
      | some t =>
        cases r' with
        | none =>
          rw [hpop'.2.1, hpop.tokens] at htokens
          cases htokens
        | some t' =>
          have hb₁ := hb.of_consumes hpop hpop' rfl
          rw [hpop.tokens, hpop'.tokens] at htokens
          cases htokens with
          | cons ht _ => exact .answers (.some ht) hb₁

theorem lockstep_isEnd : Lockstep L Eq isEnd isEnd := by
  intro b b' hb
  have hend := b.isEnd_ahead
  have hend' := b'.isEnd_ahead
  have hleft := hb.capacity_left
  have hright := hb.capacity_right
  have htokens := hb.tokens
  cases he : isEnd b with
  | error f b₁ =>
    rw [he] at hend
    exact absurd hend.2 (not_unreadable hb.failure_left (by omega))
  | ok r b₁ =>
    cases he' : isEnd b' with
    | error f b₁' =>
      rw [he'] at hend'
      exact absurd hend'.2 (not_unreadable hb.failure_right (by omega))
    | ok r' b₁' =>
      rw [he] at hend
      rw [he'] at hend'
      cases r <;> cases r'
      · exact .answers rfl (hb.of_consumes hend.1 hend'.1 rfl)
      · rw [hend'.2] at htokens
        exact absurd (List.forall₂_nil_right_iff.1 htokens) hend.2
      · rw [hend.2] at htokens
        exact absurd (List.forall₂_nil_left_iff.1 htokens) hend'.2
      · exact .answers rfl (hb.of_consumes hend.1 hend'.1 rfl)

theorem lockstep_hasKind (k : Kind) {offset : Int} (h0 : 0 ≤ offset) (h1 : offset ≤ 1) :
    Lockstep L Eq (hasKind k offset) (hasKind k offset) := by
  refine (lockstep_peek h0 h1).bind fun r r' hr => lockstep_pure ?_
  cases hr with
  | none => rfl
  | some ht => exact L.answers_eq ht k

theorem lockstep_check (p : Particle) : Lockstep L Eq (check p 0) (check p 0) :=
  lockstep_hasKind _ (Int.le_refl 0) (by decide)

theorem lockstep_check_second (p : Particle) : Lockstep L Eq (check p 1) (check p 1) :=
  lockstep_hasKind _ (by decide) (Int.le_refl 1)

theorem lockstep_nextTwo (k : Kind) (p : Particle) :
    Lockstep L Eq (do if ← hasKind k 0 then check p 1 else return false)
      (do if ← hasKind k 0 then check p 1 else return false) := by
  refine (lockstep_hasKind k (Int.le_refl 0) (by decide)).bind fun r r' hr => ?_
  subst hr
  split
  · exact lockstep_check_second p
  · exact lockstep_pure rfl

theorem lockstep_advance (expected : String) :
    Lockstep L L.token (advance expected) (advance expected) := by
  refine lockstep_pop.bind fun r r' hr => ?_
  cases hr with
  | some ht => exact lockstep_pure ht
  | none => exact lockstep_cursorPos.bind fun p p' _ => lockstep_fail (.unexpectedEnd expected p p')

theorem lockstep_accept? (p : Particle) :
    Lockstep L (Option.Rel L.token) (accept? p) (accept? p) := by
  refine (lockstep_check p).bind fun r r' hr => ?_
  subst hr
  split
  · exact (lockstep_advance _).bind fun t t' ht => lockstep_pure (.some ht)
  · exact lockstep_pure .none

theorem lockstep_operator? (ops : List Particle) :
    Lockstep L Eq (operator? ops) (operator? ops) := by
  refine (lockstep_peek (Int.le_refl 0) (by decide)).bind fun r r' hr => ?_
  cases hr with
  | none => exact lockstep_pure rfl
  | @some t t' ht =>
    have hlexeme := L.lexeme_of_token ht
    simp only [Option.map_some]
    generalize t.lexeme = l, t'.lexeme = l' at hlexeme ⊢
    cases hlexeme with
    | particle p =>
      by_cases hp : p ∈ ops
      · simp only [if_pos hp]
        exact (lockstep_advance _).bind fun _ _ _ => lockstep_pure rfl
      · simp only [if_neg hp]
        exact lockstep_pure rfl
    | number | name | skip | endOfInput => exact lockstep_pure rfl

theorem lockstep_expectClosing (p : Particle) (message : String) :
    Lockstep L (fun _ _ => True) (expectClosing p message) (expectClosing p message) := by
  refine (lockstep_accept? p).bind fun r r' hr => ?_
  cases hr with
  | some => exact lockstep_pure trivial
  | none =>
    refine lockstep_pop.bind fun r r' hr => ?_
    cases hr with
    | @some t t' ht => exact lockstep_fail (.unclosed message t.pos t'.pos (.some ht))
    | none => exact fun b b' _ => .faults (.unclosed message _ _ .none)

/-! ## Items between delimiters -/

section Items

variable {α : Type} {R : α → α → Prop} {item item' : Parser α}

theorem lockstep_dueItem (hitem : Lockstep L R item item') :
    Lockstep L R (dueItem item) (dueItem item') := by
  refine (lockstep_accept? .comma).bind fun r r' hr => ?_
  cases hr with
  | some ht => exact lockstep_fail (.unexpectedComma false ht)
  | none => exact hitem

theorem lockstep_moreItems (closing : Particle) (hitem : Lockstep L R item item') :
    ∀ fuel fuel', Lockstep L (List.Forall₂ R) (moreItems closing item fuel)
      (moreItems closing item' fuel') := by
  intro fuel
  induction fuel with
  | zero => exact fun _ => lockstep_stuck_left _
  | succ fuel ih =>
    intro fuel'
    cases fuel' with
    | zero => exact lockstep_stuck_right _
    | succ fuel' =>
      rw [moreItems, moreItems]
      refine (lockstep_accept? closing).bind fun r r' hr => ?_
      cases hr with
      | some => exact lockstep_pure .nil
      | none =>
        refine (lockstep_accept? .comma).bind fun r r' hr => ?_
        cases hr with
        | some hcomma =>
          refine (lockstep_check closing).bind fun r r' hr => ?_
          subst hr
          split
          · exact lockstep_fail (.unexpectedComma true hcomma)
          · refine (lockstep_dueItem hitem).bind fun x x' hx => ?_
            exact (ih fuel').bind fun xs xs' hxs => lockstep_pure (.cons hx hxs)
        | none =>
          refine (lockstep_advance _).bind fun t t' ht => ?_
          exact lockstep_fail (.unexpectedToken _ ht)

theorem lockstep_delimited (closing : Particle) (hitem : Lockstep L R item item')
    (fuel fuel' : Nat) :
    Lockstep L (List.Forall₂ R) (delimited fuel closing item) (delimited fuel' closing item') := by
  refine (lockstep_accept? closing).bind fun r r' hr => ?_
  cases hr with
  | some => exact lockstep_pure .nil
  | none =>
    refine (lockstep_dueItem hitem).bind fun x x' hx => ?_
    refine (lockstep_moreItems closing hitem fuel fuel').bind fun xs xs' hxs => ?_
    exact lockstep_pure (.cons hx hxs)

end Items

theorem lockstep_parameter : Lockstep L L.name parameter parameter := by
  refine (lockstep_advance _).bind fun t t' ht => ?_
  have hlexeme := L.lexeme_of_token ht
  generalize t.lexeme = l, t'.lexeme = l' at hlexeme ⊢
  cases hlexeme with
  | name hs => exact lockstep_pure hs
  | number | particle | skip | endOfInput => exact lockstep_fail (.unexpectedToken _ ht)

/-! ## Ranges -/

theorem lockstep_number (expected : String) :
    Lockstep L (fun r r' => L.value r.1 r'.1 ∧ L.token r.2 r'.2 ∧ r.2.lexeme = .number r.1 ∧
      r'.2.lexeme = .number r'.1) (number expected) (number expected) := by
  refine (lockstep_advance _).bind fun t t' ht => ?_
  have hlexeme := L.lexeme_of_token ht
  generalize hl : t.lexeme = l, hl' : t'.lexeme = l' at hlexeme ⊢
  cases hlexeme with
  | number hv => exact lockstep_pure ⟨hv, ht, hl, hl'⟩
  | name | particle | skip | endOfInput => exact lockstep_fail (.unexpectedToken _ ht)

theorem lockstep_rangeCount : Lockstep L L.length rangeCount rangeCount := by
  refine (lockstep_number _).bind fun r r' hr => ?_
  obtain ⟨v, t⟩ := r
  obtain ⟨v', t'⟩ := r'
  obtain ⟨hvalue, ht, hv, hv'⟩ := hr
  have hwhole := L.whole_of_value hvalue
  simp only
  generalize hn : v.whole? = n, hn' : v'.whole? = n' at hwhole ⊢
  cases hwhole with
  | some hlength => exact lockstep_pure hlength
  | none =>
    intro b b' _
    by_cases hundefined : v.isUndefined = true ∨ v'.isUndefined = true
    · exact .lengths ⟨ht, hv, hv', hn, hn', hundefined⟩
    · obtain ⟨hdefined, hdefined'⟩ := not_or.1 hundefined
      simp only [lengthFailure, if_neg hdefined, if_neg hdefined']
      exact .faults (.invalidRange _ ht)

theorem lockstep_rangeStep : Lockstep L (Option.Rel L.value) rangeStep rangeStep := by
  refine (lockstep_accept? .semicolon).bind fun r r' hr => ?_
  cases hr with
  | some =>
    exact (lockstep_number _).bind fun r r' hr => lockstep_pure (L.present_of_value hr.1)
  | none => exact lockstep_pure .none

theorem lockstep_range {p p' : Position} (hp : L.place p p') :
    Lockstep L (Expr.Like L) (range p) (range p') := by
  rw [range_eq, range_eq]
  refine (lockstep_number _).bind fun r r' hr => ?_
  refine (lockstep_advance _).bind fun _ _ _ => ?_
  refine lockstep_rangeCount.bind fun n n' hn => ?_
  refine lockstep_rangeStep.bind fun w w' hw => ?_
  refine (lockstep_expectClosing _ _).bind fun _ _ _ => ?_
  exact lockstep_pure (.range hr.1 hn hw hp)

/-! ## Expressions -/

section Expressions

variable {expr expr' : Parser Expr} (hexpr : Lockstep L (Expr.Like L) expr expr')
  (fuel fuel' : Nat)

include hexpr

theorem lockstep_call {s s' : String} (hs : L.name s s') :
    Lockstep L (Expr.Like L) (call fuel expr s) (call fuel' expr' s') := by
  refine (lockstep_advance _).bind fun t t' ht => ?_
  refine (lockstep_advance _).bind fun _ _ _ => ?_
  refine (lockstep_delimited _ hexpr fuel fuel').bind fun args args' hargs => ?_
  exact lockstep_pure (.call hs hargs (fun _ _ h => h) (L.place_of_token ht))

theorem lockstep_lambda :
    Lockstep L (Expr.Like L) (lambda fuel expr) (lambda fuel' expr') := by
  refine (lockstep_advance _).bind fun t t' ht => ?_
  refine (lockstep_advance _).bind fun _ _ _ => ?_
  refine (lockstep_delimited _ lockstep_parameter fuel fuel').bind fun ps ps' hps => ?_
  refine hexpr.bind fun e e' he => ?_
  exact lockstep_pure (.lambda hps he (L.place_of_token ht))

theorem lockstep_named {s s' : String} (hs : L.name s s') :
    Lockstep L (Expr.Like L) (named fuel expr s) (named fuel' expr' s') := by
  have hword : Lockstep L Eq (atLambda s) (atLambda s') := by
    unfold atLambda
    by_cases h : s = lambdaWord
    · rw [if_pos h, if_pos ((L.word_of_name hs).1 h)]
      exact lockstep_check_second _
    · rw [if_neg h, if_neg fun h' => h ((L.word_of_name hs).2 h')]
      exact lockstep_pure rfl
  refine (lockstep_check_second _).bind fun r r' hr => ?_
  subst hr
  split
  · exact lockstep_call hexpr fuel fuel' hs
  · refine hword.bind fun r r' hr => ?_
    subst hr
    split
    · exact lockstep_lambda hexpr fuel fuel'
    · refine (lockstep_advance _).bind fun t t' ht => ?_
      exact lockstep_pure (.name hs (L.place_of_token ht))

theorem lockstep_aggregate :
    Lockstep L (Expr.Like L) (aggregate fuel expr) (aggregate fuel' expr') := by
  refine (lockstep_advance _).bind fun t t' ht => ?_
  refine (lockstep_nextTwo .integer .range).bind fun r r' hr => ?_
  subst hr
  split
  · exact lockstep_range (L.place_of_token ht)
  · refine (lockstep_delimited _ hexpr fuel fuel').bind fun es es' hes => ?_
    exact lockstep_pure (.list hes (fun _ _ h => h) (L.place_of_token ht))

theorem lockstep_group : Lockstep L (Expr.Like L) (group expr) (group expr') := by
  refine (lockstep_advance _).bind fun t t' ht => ?_
  refine hexpr.bind fun e e' he => ?_
  refine (lockstep_expectClosing _ _).bind fun _ _ _ => ?_
  exact lockstep_pure (.group he (L.place_of_token ht))

/-- The form of a tight expression is decided by the class of its first token. -/
theorem lockstep_primary :
    Lockstep L (Expr.Like L) (primary fuel expr) (primary fuel' expr') := by
  refine (lockstep_peek (Int.le_refl 0) (by decide)).bind fun next next' hnext => ?_
  have hinvalid : ∀ t t' : Option Token, Option.Rel L.token t t' →
      Lockstep L (Expr.Like L)
        (do fail (.invalidExpression invalidExpressionMessage (← cursorPos) t))
        (do fail (.invalidExpression invalidExpressionMessage (← cursorPos) t')) :=
    fun t t' ht => lockstep_cursorPos.bind fun p p' _ =>
      lockstep_fail (.invalidExpression _ p p' ht)
  cases hnext with
  | none => exact hinvalid none none .none
  | @some t t' ht =>
    have hlexeme := L.lexeme_of_token ht
    simp only [Option.map_some]
    generalize t.lexeme = l, t'.lexeme = l' at hlexeme ⊢
    cases hlexeme with
    | number hv =>
      refine (lockstep_advance _).bind fun u u' hu => ?_
      exact lockstep_pure (.number hv (L.place_of_token hu))
    | name hs => exact lockstep_named hexpr fuel fuel' hs
    | particle p =>
      cases p with
      | leftParen => exact lockstep_group hexpr
      | leftBracket => exact lockstep_aggregate hexpr fuel fuel'
      | _ => exact hinvalid _ _ (.some ht)
    | skip | endOfInput => exact hinvalid _ _ (.some ht)

end Expressions

/-! ## Operators -/

section Operators

variable {operand operand' : Parser Expr} (hoperand : Lockstep L (Expr.Like L) operand operand')

include hoperand

theorem lockstep_unary :
    ∀ fuel fuel', Lockstep L (Expr.Like L) (unary operand fuel) (unary operand' fuel') := by
  intro fuel
  induction fuel with
  | zero => exact fun _ => lockstep_stuck_left _
  | succ fuel ih =>
    intro fuel'
    cases fuel' with
    | zero => exact lockstep_stuck_right _
    | succ fuel' =>
      rw [unary, unary]
      refine (lockstep_operator? _).bind fun r r' hr => ?_
      subst hr
      cases r with
      | some op => exact (ih fuel').bind fun e e' he => lockstep_pure (.unary op he he.pos)
      | none => exact hoperand

theorem lockstep_chain (ops : List Particle) :
    ∀ (fuel fuel' : Nat) {left left' : Expr}, Expr.Like L left left' →
      Lockstep L (Expr.Like L) (chain ops operand fuel left) (chain ops operand' fuel' left') := by
  intro fuel
  induction fuel with
  | zero => exact fun _ _ _ _ => lockstep_stuck_left _
  | succ fuel ih =>
    intro fuel' left left' hleft
    cases fuel' with
    | zero => exact lockstep_stuck_right _
    | succ fuel' =>
      rw [chain, chain]
      refine (lockstep_operator? _).bind fun r r' hr => ?_
      subst hr
      cases r with
      | some op =>
        exact hoperand.bind fun e e' he => ih fuel' (.binary op hleft he hleft.pos)
      | none => exact lockstep_pure hleft

theorem lockstep_tier (t : Tier) (fuel fuel' : Nat) :
    Lockstep L (Expr.Like L) (tier fuel t operand) (tier fuel' t operand') :=
  hoperand.bind fun _ _ hleft => lockstep_chain hoperand t.operators fuel fuel' hleft

theorem lockstep_operation (fuel fuel' : Nat) :
    Lockstep L (Expr.Like L) (operation fuel operand) (operation fuel' operand') := by
  have hfactor := lockstep_tier hoperand .factor fuel fuel'
  have hterm := lockstep_tier hfactor .term fuel fuel'
  have hlogic := lockstep_tier hterm .logic fuel fuel'
  have hcomparison := lockstep_tier hlogic .comparison fuel fuel'
  exact lockstep_tier hcomparison .equality fuel fuel'

end Operators

theorem lockstep_ternary {condition condition' branch branch' : Parser Expr}
    (hcondition : Lockstep L (Expr.Like L) condition condition')
    (hbranch : Lockstep L (Expr.Like L) branch branch') :
    Lockstep L (Expr.Like L) (ternary condition branch) (ternary condition' branch') := by
  refine hcondition.bind fun c c' hc => ?_
  refine (lockstep_accept? .question).bind fun r r' hr => ?_
  cases hr with
  | none => exact lockstep_pure hc
  | some =>
    refine hbranch.bind fun t t' ht => ?_
    refine (lockstep_accept? .colon).bind fun r r' hr => ?_
    cases hr with
    | some => exact hbranch.bind fun e e' he => lockstep_pure (.ternary hc ht he hc.pos)
    | none =>
      refine (lockstep_peek (Int.le_refl 0) (by decide)).bind fun u u' hu => ?_
      exact lockstep_fail (.missingToken _ _ _ hu)

theorem lockstep_expression :
    ∀ fuel fuel', Lockstep L (Expr.Like L) (expression fuel) (expression fuel') := by
  -- The two fuels are not related, so the induction on one of them is for all of the other.
  intro fuel
  induction fuel with
  | zero => exact fun _ => lockstep_stuck_left _
  | succ fuel ih =>
    intro fuel'
    cases fuel' with
    | zero => exact lockstep_stuck_right _
    | succ fuel' =>
      have hprimary := lockstep_primary (ih fuel') (fuel + 1) (fuel' + 1)
      have hunary := lockstep_unary hprimary (fuel + 1) (fuel' + 1)
      exact lockstep_ternary (lockstep_operation hunary _ _) (ih fuel')

/-! ## Statements -/

/-- The fuel of a whole expression comes from the buffer, so it differs between two buffers. -/
theorem lockstep_wholeExpression : Lockstep L (Expr.Like L) wholeExpression wholeExpression :=
  fun b b' hb => lockstep_expression (b.weight + 1) (b'.weight + 1) hb

theorem lockstep_assignment : Lockstep L (Stmt.Like L) assignment assignment := by
  refine (lockstep_advance _).bind fun t t' ht => ?_
  have hlexeme := L.lexeme_of_token ht
  generalize t.lexeme = l, t'.lexeme = l' at hlexeme ⊢
  cases hlexeme with
  | name hs =>
    refine (lockstep_advance _).bind fun _ _ _ => ?_
    refine lockstep_wholeExpression.bind fun e e' he => ?_
    exact lockstep_pure (.assign hs he (L.place_of_token ht))
  | number | particle | skip | endOfInput => exact lockstep_fail (.invalidTarget ht)

theorem lockstep_bareStatement : Lockstep L (Stmt.Like L) bareStatement bareStatement := by
  refine (lockstep_nextTwo .identifier .assign).bind fun r r' hr => ?_
  subst hr
  split
  · exact lockstep_assignment
  · refine lockstep_wholeExpression.bind fun e e' he => ?_
    exact lockstep_pure (.expression he he.pos)

theorem lockstep_statement : Lockstep L (Stmt.Like L) statement statement := by
  intro b b' hb
  have hbare := lockstep_bareStatement hb
  unfold statement
  generalize bareStatement b = r, bareStatement b' = r' at hbare ⊢
  cases hbare with
  | answers hs hb₁ => exact .answers hs hb₁
  | faults hx => exact .faults hx
  | lengths ht =>
    simp only [inFile_lengthFailure]
    exact .lengths ht
  | stuckLeft => exact .stuckLeft
  | stuckRight => exact .stuckRight

theorem lockstep_statements :
    ∀ fuel fuel', Lockstep L (List.Forall₂ (Stmt.Like L)) (statements fuel) (statements fuel') := by
  intro fuel
  induction fuel with
  | zero => exact fun _ => lockstep_stuck_left _
  | succ fuel ih =>
    intro fuel'
    cases fuel' with
    | zero => exact lockstep_stuck_right _
    | succ fuel' =>
      rw [statements, statements]
      refine lockstep_isEnd.bind fun r r' hr => ?_
      subst hr
      split
      · exact lockstep_pure .nil
      · refine lockstep_statement.bind fun s s' hs => ?_
        exact (ih fuel').bind fun ss ss' hss => lockstep_pure (.cons hs hss)

theorem lockstep_program : Lockstep L (List.Forall₂ (Stmt.Like L)) program program :=
  fun b b' hb => lockstep_statements (b.weight + 1) (b'.weight + 1) hb

/-- The fault of a whole program names its source, and is not that the fuel is out. -/
theorem fault_of_program {b b₁ : Buffer} {e : ParseError}
    (hrun : program b = .error (.grammatical e) b₁) :
    e.filename = b.cursor.filename ∧ ∀ p, e.fault ≠ .noProgress p := by
  have hmeets := meets_program b
  unfold MeetsIn MeetsWith at hmeets
  rw [hrun] at hmeets
  obtain ⟨ts, -, hv⟩ := hmeets
  cases hv with
  | scanning hf =>
    rcases refuses_of_ahead hf with ⟨e, he, -⟩ | ⟨text, e, -, -, -, he⟩
    · cases he
    · cases he
  | fault hx =>
    refine ⟨rfl, ?_⟩
    rintro p rfl
    exact hx

/-- So does the failure at a length. -/
theorem lengthFailure_of_program {b b₁ : Buffer} {file : String} {v : Value} {t : Token}
    (hrun : program b = .error (lengthFailure file v t) b₁) :
    program b = .error (lengthFailure b.cursor.filename v t) b₁ := by
  rw [hrun]
  unfold lengthFailure at hrun ⊢
  split
  · rfl
  · next hdefined =>
    rw [if_neg hdefined] at hrun
    rw [← (fault_of_program hrun).1]

/-- Two buffers that are alike ahead are both programs, with statements that are alike, or both
fail with the same fault about corresponding tokens, or both fail at corresponding lengths. -/
theorem program_likeAhead {b b' : Buffer} (h : Buffer.LikeAhead L b b') :
    (∃ ss ss' b₁ b₁', program b = .ok ss b₁ ∧ program b' = .ok ss' b₁' ∧
      List.Forall₂ (Stmt.Like L) ss ss') ∨
    (∃ x x' b₁ b₁', program b = .error (.grammatical ⟨x, b.cursor.filename⟩) b₁ ∧
      program b' = .error (.grammatical ⟨x', b'.cursor.filename⟩) b₁' ∧
      ParseFault.Like L x x') ∨
    ∃ t t' v v' b₁ b₁', L.OddLengths t t' v v' ∧
      program b = .error (lengthFailure b.cursor.filename v t) b₁ ∧
      program b' = .error (lengthFailure b'.cursor.filename v' t') b₁' := by
  have hboth := lockstep_program h
  generalize hrun : program b = r, hrun' : program b' = r' at hboth
  cases hboth with
  | answers hss _ => exact .inl ⟨_, _, _, _, rfl, rfl, hss⟩
  | faults hx =>
    obtain rfl := (fault_of_program hrun).1
    obtain rfl := (fault_of_program hrun').1
    exact .inr (.inl ⟨_, _, _, _, rfl, rfl, hx⟩)
  | lengths ht =>
    rw [← hrun, ← hrun']
    exact .inr (.inr ⟨_, _, _, _, _, _, ht, lengthFailure_of_program hrun,
      lengthFailure_of_program hrun'⟩)
  | stuckLeft => exact absurd rfl ((fault_of_program hrun).2 _)
  | stuckRight => exact absurd rfl ((fault_of_program hrun').2 _)

end Grammar

/-! ## Sources -/

section Sources

open Grammar (lengthFailure)

variable {c c' : Config} {source source' : String}

/-- Two sources whose tokens are alike are both programs, with statements that are alike, or
both fail with the same fault about corresponding tokens, or both fail at corresponding
lengths. -/
theorem parseProgram_likeAhead
    (h : Buffer.LikeAhead L (c.session source) (c'.session source')) :
    (∃ ss ss', parseProgram c source = .ok ss ∧ parseProgram c' source' = .ok ss' ∧
      List.Forall₂ (Stmt.Like L) ss ss') ∨
    (∃ x x', parseProgram c source = .error (.grammatical ⟨x, c.filename⟩) ∧
      parseProgram c' source' = .error (.grammatical ⟨x', c'.filename⟩) ∧
      ParseFault.Like L x x') ∨
    ∃ t t' v v', L.OddLengths t t' v v' ∧
      parseProgram c source = .error (lengthFailure c.filename v t) ∧
      parseProgram c' source' = .error (lengthFailure c'.filename v' t') := by
  unfold parseProgram
  rcases Grammar.program_likeAhead h with
    ⟨ss, ss', b, b', hrun, hrun', hss⟩ | ⟨x, x', b, b', hrun, hrun', hx⟩ |
    ⟨t, t', v, v', b, b', ht, hrun, hrun'⟩
  · rw [hrun, hrun']
    exact .inl ⟨ss, ss', rfl, rfl, hss⟩
  · rw [hrun, hrun']
    exact .inr (.inl ⟨x, x', rfl, rfl, hx⟩)
  · rw [hrun, hrun']
    exact .inr (.inr ⟨t, t', v, v', ht, rfl, rfl⟩)

end Sources

end ExprFront
