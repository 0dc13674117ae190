import ExprFront.Proofs.Ahead
import ExprFront.Proofs.Lengths

/-!
# Contracts of the rules

A rule of the grammar is a computation on a buffer.  `Meets p b Post` says how a run of the
rule `p` from the buffer `b` may end: either it answers, and then exactly some tokens were
consumed that satisfy `Post` together with the answer and with the tokens left ahead; or
it fails, and then with a failure that `Verdict` lists.  Contracts compose along `>>=`
(`MeetsIn.bind`), so that the contract of a rule comes from the contracts of its parts.
`MeetsWith` leaves open which failures may occur; it serves where the verdict on a part speaks
of tokens before the part.

Which faults may occur is a parameter of the contract: to be sound, a rule may end with any
fault that is possible; to be complete, it may end with none.  The contracts of looks ahead
and of tokens that are known to come next hold for both.

The second half of the module holds the contracts of the parts that all rules are made of:
looks ahead, single tokens, operators, delimiters.

A rule that takes a token it has looked at before can name what it expects, but the
expectation is never disappointed.  So `ParseFault.Possible` leaves out most of the
expectations that the grammar mentions.
-/

namespace ExprFront

/-- The expectations that a token of another class can disappoint. -/
def wantedTokens : List String := ["a comma", "a parameter", "a range length", "a range step"]

/-- The expectations that the end of input can disappoint. -/
def wantedAtEnd : List String :=
  ["a comma or '\x7d'", "a comma or ')'", "a comma or ']'", "a parameter", "a range length",
    "a range step"]

/-- Can a parse end with the fault? -/
def ParseFault.Possible : ParseFault → Prop
  | unexpectedToken expected _ => expected ∈ wantedTokens
  | unexpectedEnd expected _ => expected ∈ wantedAtEnd
  | missingToken .. | unexpectedComma .. | unclosed .. | invalidExpression ..
  | invalidRange .. => True
  | invalidTarget _ | noProgress _ => False

/-- Is the first token ahead the particle? -/
def Next (p : Particle) (ts : List Token) : Prop := ts.head?.map Token.lexeme = some (.particle p)

@[simp] theorem next_cons {p : Particle} {t : Token} {ts : List Token} :
    Next p (t :: ts) ↔ t.lexeme = .particle p := by simp [Next]

theorem exists_of_next {p : Particle} {ts : List Token} (h : Next p ts) :
    ∃ t us, ts = t :: us ∧ t.lexeme = .particle p := by
  cases ts with
  | nil => exact absurd h (by simp [Next])
  | cons t us => exact ⟨t, us, rfl, by simpa [Next] using h⟩

theorem Token.answers_particle {t : Token} {p : Particle} :
    t.answers (.particle p) = true ↔ t.lexeme = .particle p := by
  cases t with
  | mk l pos text => cases l <;> simp [Token.answers, Lexeme.answers, eq_comm]

/-- Only one particle comes next. -/
theorem Next.unique {p q : Particle} {ts : List Token} (hp : Next p ts) (hq : Next q ts) :
    p = q := by
  rw [Next, hp] at hq
  cases hq
  rfl

@[simp] theorem not_next_nil {p : Particle} : ¬ Next p [] := by simp [Next]

/-- Does the first token ahead answer to the kind, and is the second one the particle? -/
def NextTwo (k : Kind) (p : Particle) (ts : List Token) : Prop :=
  ts.head?.any (·.answers k) = true ∧ Next p ts.tail

theorem exists_of_nextTwo {k : Kind} {p : Particle} {ts : List Token} (h : NextTwo k p ts) :
    ∃ t u us, ts = t :: u :: us ∧ t.answers k = true ∧ u.lexeme = .particle p := by
  cases ts with
  | nil => exact absurd h.1 (by simp)
  | cons t us =>
    obtain ⟨u, us, rfl, hu⟩ := exists_of_next h.2
    exact ⟨t, u, us, rfl, h.1, hu⟩

theorem Token.answers_integer {t : Token} :
    t.answers .integer = true ↔ ∃ v, t.lexeme = .number v := by
  cases t with
  | mk l pos text => cases l <;> simp [Token.answers, Lexeme.answers]

theorem Token.answers_identifier {t : Token} :
    t.answers .identifier = true ↔ ∃ s, t.lexeme = .name s := by
  cases t with
  | mk l pos text => cases l <;> simp [Token.answers, Lexeme.answers]

/-- Somewhere among the tokens a range starts whose length is `t`, an undefined decimal. -/
def UndefinedLength (ts : List Token) (t : Token) : Prop :=
  ∃ before opening first dots after start length,
    ts = before ++ opening :: first :: dots :: t :: after ∧
    opening.lexeme = .particle .leftBracket ∧ first.lexeme = .number start ∧
    dots.lexeme = .particle .range ∧ t.lexeme = .number length ∧ length.isUndefined = true

theorem UndefinedLength.append {ts : List Token} {t : Token} (h : UndefinedLength ts t)
    (us : List Token) : UndefinedLength (us ++ ts) t := by
  obtain ⟨before, opening, first, dots, after, start, length, rfl, h⟩ := h
  exact ⟨us ++ before, opening, first, dots, after, start, length, by simp, h⟩

namespace Grammar

open Buffer

/-- The failures that a rule can end with on a buffer.  A fault of the grammar is one of
`Fault`, and it names the source `file`.  Where the fault of a length is one of them, the length
may also be undefined. -/
inductive Verdict (Fault : ParseFault → Prop) (file : String) (b : Buffer) : Failure → Prop where
  /-- Scanning fails after the tokens ahead. -/
  | scanning {f : Failure} (h : b.ahead.failure? = some f) : Verdict Fault file b f
  /-- The buffer does not reach the second token. -/
  | shallow {offset : Int} (h : b.capacity ≤ offset) (hoffset : offset ≤ 1) :
      Verdict Fault file b (.beyondCapacity offset b.capacity)
  /-- The tokens are no program. -/
  | fault {x : ParseFault} (h : Fault x) : Verdict Fault file b (.grammatical ⟨x, file⟩)
  /-- The length of a range is an undefined decimal. -/
  | undefined {t : Token} (hfault : Fault (lengthFault t))
      (h : UndefinedLength b.ahead.tokens t) :
      Verdict Fault file b (.breakdown .undefinedOrder)

variable {Fault : ParseFault → Prop} {file : String}

theorem Verdict.of_consumes {b b' : Buffer} {ts : List Token} {f : Failure}
    (h : b.Consumes ts b') (hv : Verdict Fault file b' f) : Verdict Fault file b f := by
  cases hv with
  | scanning hf => exact .scanning (h.failure ▸ hf)
  | shallow hc ho =>
    rw [h.capacity] at hc ⊢
    exact .shallow hc ho
  | fault hx => exact .fault hx
  | undefined hfault ht =>
    have htokens := ht.append ts
    rw [← h.tokens] at htokens
    exact .undefined hfault htokens

theorem Verdict.of_unreadable {b : Buffer} {offset : Int} {f : Failure}
    (h : b.Unreadable offset f) (hoffset : offset ≤ 1) : Verdict Fault file b f := by
  rcases h with ⟨hf, -⟩ | ⟨hc, rfl⟩
  · exact .scanning hf
  · exact .shallow hc hoffset

/-- How a run of `p` from `b` may end.  `Post` relates the answer, the tokens consumed and
the tokens left ahead; `Ends` says which failures may occur. -/
def MeetsWith {α : Type} (Ends : Failure → Prop) (p : Parser α) (b : Buffer)
    (Post : α → List Token → List Token → Prop) : Prop :=
  match p b with
  | .ok a b' => ∃ ts, b.Consumes ts b' ∧ Post a ts b'.ahead.tokens
  | .error f b' => ∃ ts, b.Consumes ts b' ∧ Ends f

/-- How a run of `p` from `b` may end, if its failures are verdicts on that buffer.  `Fault` and
`file` say which faults may occur. -/
def MeetsIn {α : Type} (Fault : ParseFault → Prop) (file : String) (p : Parser α) (b : Buffer)
    (Post : α → List Token → List Token → Prop) : Prop :=
  MeetsWith (Verdict Fault file b) p b Post

/-- How a run may end in a rule below the statement: its faults do not name the source. -/
abbrev Meets {α : Type} (p : Parser α) (b : Buffer)
    (Post : α → List Token → List Token → Prop) : Prop :=
  MeetsIn ParseFault.Possible anonymous p b Post

section Composition

variable {α β : Type} {p : Parser α} {f : α → Parser β} {b : Buffer} {Ends : Failure → Prop}

theorem meetsWith_pure {a : α} {Post : α → List Token → List Token → Prop}
    (h : Post a [] b.ahead.tokens) : MeetsWith Ends (pure a) b Post := ⟨[], .refl b, h⟩

theorem meets_pure {a : α} {Post : α → List Token → List Token → Prop}
    (h : Post a [] b.ahead.tokens) : MeetsIn Fault file (pure a) b Post := meetsWith_pure h

/-- Other failures may be allowed, if they include the verdicts. -/
theorem MeetsIn.with {Post : α → List Token → List Token → Prop}
    (hp : MeetsIn Fault file p b Post) (hends : ∀ f, Verdict Fault file b f → Ends f) :
    MeetsWith Ends p b Post := by
  unfold MeetsIn MeetsWith at hp
  unfold MeetsWith
  split
  · next a b' hpb =>
    rw [hpb] at hp
    exact hp
  · next e b' hpb =>
    rw [hpb] at hp
    obtain ⟨ts, hconsumes, hv⟩ := hp
    exact ⟨ts, hconsumes, hends e hv⟩

/-- A verdict is one on every earlier buffer too. -/
theorem MeetsIn.from {Post : α → List Token → List Token → Prop} {b₀ : Buffer}
    {before : List Token} (hp : MeetsIn Fault file p b Post) (hb : b₀.Consumes before b) :
    MeetsWith (Verdict Fault file b₀) p b Post :=
  hp.with fun _ => Verdict.of_consumes hb

/-- Contracts compose: the second rule starts where the first one ends. -/
theorem MeetsWith.bind {R : α → List Token → List Token → Prop}
    {Post : β → List Token → List Token → Prop} (hp : MeetsWith Ends p b R)
    (hf : ∀ a ts b', b.Consumes ts b' → R a ts b'.ahead.tokens →
      MeetsWith Ends (f a) b' fun c us rest => Post c (ts ++ us) rest) :
    MeetsWith Ends (p >>= f) b Post := by
  have hrun : (p >>= f) b = EStateM.bind p f b := rfl
  unfold MeetsWith at hp ⊢
  rw [hrun, EStateM.bind]
  cases hpb : p b with
  | error e b' =>
    rw [hpb] at hp
    exact hp
  | ok a b' =>
    rw [hpb] at hp
    obtain ⟨ts, hconsumes, hR⟩ := hp
    have hnext := hf a ts b' hconsumes hR
    unfold MeetsWith at hnext
    simp only
    split
    · next c b'' hfb =>
      rw [hfb] at hnext
      obtain ⟨us, hconsumes', hPost⟩ := hnext
      exact ⟨ts ++ us, hconsumes.trans hconsumes', hPost⟩
    · next e b'' hfb =>
      rw [hfb] at hnext
      obtain ⟨us, hconsumes', hends⟩ := hnext
      exact ⟨ts ++ us, hconsumes.trans hconsumes', hends⟩

theorem MeetsIn.bind {R : α → List Token → List Token → Prop}
    {Post : β → List Token → List Token → Prop} (hp : MeetsIn Fault file p b R)
    (hf : ∀ a ts b', b.Consumes ts b' → R a ts b'.ahead.tokens →
      MeetsIn Fault file (f a) b' fun c us rest => Post c (ts ++ us) rest) :
    MeetsIn Fault file (p >>= f) b Post :=
  MeetsWith.bind hp fun a ts b' hconsumes hR => (hf a ts b' hconsumes hR).from hconsumes

theorem MeetsIn.mono {R Post : α → List Token → List Token → Prop} (hp : MeetsIn Fault file p b R)
    (h : ∀ a ts rest, b.ahead.tokens = ts ++ rest → R a ts rest → Post a ts rest) :
    MeetsIn Fault file p b Post := by
  unfold MeetsIn MeetsWith at hp ⊢
  cases hpb : p b with
  | error e b' =>
    rw [hpb] at hp
    exact hp
  | ok a b' =>
    rw [hpb] at hp
    obtain ⟨ts, hconsumes, hR⟩ := hp
    exact ⟨ts, hconsumes, h a ts _ hconsumes.tokens hR⟩

/-- A rule that only looks is followed by another one from the same tokens. -/
theorem MeetsIn.bind_look {R : α → List Token → Prop}
    {Post : β → List Token → List Token → Prop}
    (hp : MeetsIn Fault file p b fun a ts rest => ts = [] ∧ R a rest)
    (hf : ∀ a b', b.Consumes [] b' → R a b'.ahead.tokens → MeetsIn Fault file (f a) b' Post) :
    MeetsIn Fault file (p >>= f) b Post := by
  refine hp.bind fun a ts b' hconsumes h => ?_
  obtain ⟨rfl, hR⟩ := h
  exact hf a b' hconsumes hR

end Composition

/-! ## Looks ahead -/

theorem meets_peek (b : Buffer) {offset : Int} (h0 : 0 ≤ offset) (h1 : offset ≤ 1) :
    MeetsIn Fault file (peek offset) b fun r ts rest => ts = [] ∧ r = rest[offset.toNat]? := by
  have hpeek := b.peek_ahead h0
  unfold MeetsIn MeetsWith
  split
  · next r b' hp =>
    rw [hp] at hpeek
    refine ⟨[], hpeek.1, rfl, ?_⟩
    rw [hpeek.2.1, hpeek.1.tokens, List.nil_append]
  · next f b' hp =>
    rw [hp] at hpeek
    exact ⟨[], hpeek.1, .of_unreadable hpeek.2 h1⟩

theorem meets_peek_first (b : Buffer) :
    MeetsIn Fault file (peek 0) b fun r ts rest => ts = [] ∧ r = rest.head? := by
  refine (meets_peek b (Int.le_refl 0) (by decide)).mono fun r ts rest _ h => ⟨h.1, ?_⟩
  rw [h.2, List.head?_eq_getElem?]
  rfl

theorem meets_hasKind (b : Buffer) (k : Kind) {offset : Int} (h0 : 0 ≤ offset)
    (h1 : offset ≤ 1) :
    MeetsIn Fault file (hasKind k offset) b fun r ts rest =>
      ts = [] ∧ r = rest[offset.toNat]?.any (·.answers k) := by
  refine (meets_peek b h0 h1).bind_look fun r b' _ hr => meets_pure ⟨rfl, ?_⟩
  rw [hr]

/-- Is the first token ahead the particle? -/
theorem meets_check (b : Buffer) (p : Particle) :
    MeetsIn Fault file (check p 0) b fun r ts rest => ts = [] ∧ (r = true ↔ Next p rest) := by
  refine (meets_hasKind b _ (Int.le_refl 0) (by decide)).mono fun r ts rest _ h => ⟨h.1, ?_⟩
  rw [h.2]
  cases rest with
  | nil => simp
  | cons t us => simp [Token.answers_particle]

/-- Is the second token ahead the particle? -/
theorem meets_check_second (b : Buffer) (p : Particle) :
    MeetsIn Fault file (check p 1) b fun r ts rest => ts = [] ∧ (r = true ↔ Next p rest.tail) := by
  refine (meets_hasKind b _ (by decide) (Int.le_refl 1)).mono fun r ts rest _ h => ⟨h.1, ?_⟩
  rw [h.2]
  match rest with
  | [] | [_] => simp
  | t :: u :: us => simp [Token.answers_particle]

/-- Do a token of the kind and the particle come next? -/
theorem meets_nextTwo (b : Buffer) (k : Kind) (p : Particle) :
    MeetsIn Fault file (do if ← hasKind k 0 then check p 1 else return false) b fun r ts rest =>
      ts = [] ∧ (r = true ↔ NextTwo k p rest) := by
  refine (meets_hasKind b k (Int.le_refl 0) (by decide)).bind_look fun r b1 _ hr => ?_
  have hfirst : r = b1.ahead.tokens.head?.any (·.answers k) := by
    rw [hr, List.head?_eq_getElem?]
    rfl
  by_cases hk : r = true
  · rw [if_pos hk]
    refine (meets_check_second b1 p).mono fun r' ts rest hsplit h => ⟨h.1, ?_⟩
    rw [h.1, List.nil_append] at hsplit
    rw [h.2, NextTwo, ← hsplit, ← hfirst]
    exact (and_iff_right hk).symm
  · rw [if_neg hk]
    refine meets_pure ⟨rfl, fun h => absurd h (by decide), fun h => absurd ?_ hk⟩
    rw [hfirst]
    exact h.1

theorem meets_cursorPos (b : Buffer) : MeetsIn Fault file cursorPos b fun _ ts _ => ts = [] :=
  ⟨[], .refl b, rfl⟩

theorem meets_fail {α : Type} {b : Buffer} (x : ParseFault) (h : Fault x)
    {Post : α → List Token → List Token → Prop} : MeetsIn Fault anonymous (fail x) b Post :=
  ⟨[], .refl b, .fault h⟩

/-! ## Single tokens -/

theorem meets_pop (b : Buffer) :
    MeetsIn Fault file pop b fun r ts _ =>
      (∃ t, r = some t ∧ ts = [t]) ∨
        (r = none ∧ ts = [] ∧ b.ahead.tokens = [] ∧ b.ahead.failure? = none) := by
  have hpop := b.pop_ahead
  unfold MeetsIn MeetsWith
  cases hp : pop b with
  | error f b' =>
    rw [hp] at hpop
    exact ⟨[], hpop.1, .of_unreadable hpop.2 (by decide)⟩
  | ok r b' =>
    rw [hp] at hpop
    cases r with
    | none => exact ⟨[], hpop.1, .inr ⟨rfl, rfl, hpop.2⟩⟩
    | some t => exact ⟨[t], hpop, .inl ⟨t, rfl, rfl⟩⟩

/-- A token is taken unless the input ends, and then the expectation is one that the end of
input can disappoint. -/
theorem meets_advance (b : Buffer) {expected : String}
    (h : expected ∈ wantedAtEnd ∨ b.ahead.tokens ≠ []) :
    Meets (advance expected) b fun t ts _ => ts = [t] := by
  refine (meets_pop b).bind fun r ts b' _ hr => ?_
  rcases hr with ⟨t, rfl, rfl⟩ | ⟨rfl, rfl, hnil⟩
  · exact meets_pure rfl
  · have hwanted := h.resolve_right (fun hne => hne hnil.1)
    refine (meets_cursorPos b').bind fun pos us b'' _ _ => ?_
    exact meets_fail (.unexpectedEnd expected pos) hwanted

/-- A token that is known to come next is taken. -/
theorem meets_advance_cons {b : Buffer} {t : Token} {us : List Token}
    (h : b.ahead.tokens = t :: us) (expected : String) :
    MeetsIn Fault file (advance expected) b fun u ts rest => u = t ∧ ts = [t] ∧ rest = us := by
  refine (meets_pop b).bind fun r ts b' hb' hr => ?_
  have htokens := hb'.tokens
  rw [h] at htokens
  rcases hr with ⟨u, rfl, rfl⟩ | ⟨rfl, rfl, hnil⟩
  · cases htokens
    exact meets_pure ⟨rfl, rfl, rfl⟩
  · rw [h] at hnil
    cases hnil.1

/-- The particle is taken if it comes next. -/
theorem meets_accept? (b : Buffer) (p : Particle) :
    MeetsIn Fault file (accept? p) b fun r ts rest =>
      (∃ t, r = some t ∧ ts = [t] ∧ t.lexeme = .particle p) ∨
        (r = none ∧ ts = [] ∧ ¬ Next p rest) := by
  refine (meets_check b p).bind_look fun r b' _ hr => ?_
  by_cases hnext : r = true
  · obtain ⟨t, us, htokens, hp⟩ := exists_of_next (hr.1 hnext)
    rw [if_pos hnext]
    refine (meets_advance_cons htokens _).bind fun u ts b'' _ hu => ?_
    obtain ⟨rfl, rfl, -⟩ := hu
    exact meets_pure (.inl ⟨u, rfl, rfl, hp⟩)
  · rw [if_neg hnext]
    exact meets_pure (.inr ⟨rfl, rfl, fun h => hnext (hr.2 h)⟩)

/-- The next token is taken if it is one of the operators. -/
theorem meets_operator? (b : Buffer) (ops : List Particle) :
    MeetsIn Fault file (operator? ops) b fun r ts rest =>
      (∃ t op, r = some op ∧ ts = [t] ∧ t.lexeme = .particle op ∧ op ∈ ops) ∨
        (r = none ∧ ts = [] ∧ ∀ op ∈ ops, ¬ Next op rest) := by
  refine (meets_peek_first b).bind_look fun r b' _ hr => ?_
  subst hr
  split
  · next op hop =>
    split
    · next hmem =>
      obtain ⟨t, us, htokens, hp⟩ := exists_of_next hop
      refine (meets_advance_cons htokens _).bind fun u ts b'' _ hu => ?_
      obtain ⟨rfl, rfl, -⟩ := hu
      exact meets_pure (.inl ⟨u, op, rfl, rfl, hp, hmem⟩)
    · next hmem =>
      refine meets_pure (.inr ⟨rfl, rfl, fun op' hop' hnext => hmem ?_⟩)
      rw [Next, hop] at hnext
      cases hnext
      exact hop'
  · next hne => exact meets_pure (.inr ⟨rfl, rfl, fun op' _ hnext => hne op' hnext⟩)

/-- The closing delimiter is taken. -/
theorem meets_expectClosing (b : Buffer) (p : Particle) (message : String) :
    Meets (expectClosing p message) b fun _ ts _ =>
      ∃ t, ts = [t] ∧ t.lexeme = .particle p := by
  refine (meets_accept? b p).bind fun r ts b' _ hr => ?_
  rcases hr with ⟨t, rfl, rfl, hp⟩ | ⟨rfl, rfl, -⟩
  · exact meets_pure ⟨t, rfl, hp⟩
  · refine (meets_pop b').bind fun r ts b'' _ hr => ?_
    rcases hr with ⟨t, rfl, rfl⟩ | ⟨rfl, rfl, -⟩
    · exact meets_fail (.unclosed message t.pos (some t)) trivial
    · exact ⟨[], .refl b'', .fault trivial⟩

end Grammar

end ExprFront
