import ExprFront.Proofs.ReadPoint
import ExprFront.Proofs.Soundness

/-!
# The grammar looks one token past the read point

The least capacity of a buffer that serves the grammar is two.  This module shows why two is
enough, and that more makes no difference.

A second token is fetched only behind a name or a number, and such a first token is consumed
before anything else can fail.  So the queue holds at most two tokens at any time, and
at most one whenever a rule is left.

* `Trail p b ms` says that a run of the rule `p` takes the buffer `b` through the states `ms`.
* `Buffer.Tidy` is what holds in all of these states, and `Buffer.Slim` what holds between
  statements.
* `Careful Excuse p b Post` joins what is shown of a run: its trail is tidy, it is the same for
  every capacity from two on, and where it ends.  It composes along `>>=` (`Careful.bind`).
* Most rules lead from a tidy buffer to a slim one (`Frugal`).  What follows the first token of a
  rule, and the loop of a tier behind its first operand, lead from a slim one to a slim one
  (`Keeps`).

A rule that is out of fuel stops with a buffer that need not be slim, so below whole expressions
this failure is excused (`Spent`).  That it does not happen is known from the contracts of the
rules (`Careful.of_meets`).

Main result: `Session.runSteps_withCapacity`.
-/

namespace ExprFront

/-- The token is a name or a number. -/
def Token.Leads (t : Token) : Prop := (∃ s, t.lexeme = .name s) ∨ ∃ v, t.lexeme = .number v

namespace Buffer

/-- The buffer with another capacity. -/
def withCapacity (b : Buffer) (n : Int) : Buffer := { b with capacity := n }

/-- At most two tokens are buffered, and the first of two is a name or a number. -/
structure Tidy (b : Buffer) : Prop where
  reach : minLookahead ≤ b.capacity
  short : b.queue.length ≤ 2
  leads : ∀ t u us, b.queue = t :: u :: us → t.Leads

/-- At most one token is buffered. -/
structure Slim (b : Buffer) : Prop where
  reach : minLookahead ≤ b.capacity
  short : b.queue.length ≤ 1

variable {b b' : Buffer}

theorem Slim.tidy (h : b.Slim) : b.Tidy where
  reach := h.reach
  short := Nat.le_succ_of_le h.short
  leads t u us hq := by
    have hshort := h.short
    rw [hq, List.length_cons, List.length_cons] at hshort
    omega

/-- A tidy buffer whose first token is no name and no number holds no other. -/
theorem Tidy.slim_of_head (h : b.Tidy) (hhead : ∀ t, b.queue.head? = some t → ¬ t.Leads) :
    b.Slim where
  reach := h.reach
  short := by
    match hq : b.queue with
    | [] | [_] => simp
    | t :: u :: us => exact absurd (h.leads t u us hq) (hhead t (by rw [hq, List.head?_cons]))

end Buffer

/-- The outcome with its state changed by `g`. -/
def mapState {σ τ α : Type} (g : σ → τ) : Outcome σ α → Outcome τ α
  | .ok a s => .ok a (g s)
  | .error f s => .error f (g s)

namespace Grammar

open Buffer

/-! ## Trails -/

/-- A rule that only looks at the buffer. -/
def reading {α : Type} (f : Buffer → Except Failure α) : Parser α := fun b =>
  match f b with
  | .ok a => .ok a b
  | .error e => .error e b

/-- A rule with its failures changed by `g`. -/
def relabel {α : Type} (g : Buffer → Failure → Failure) (p : Parser α) : Parser α := fun b =>
  match p b with
  | .ok a b' => .ok a b'
  | .error f b' => .error (g b f) b'

/-- The function looks at what the buffer holds and at how much text is left, but not at the text
itself. -/
def IgnoresText {α : Type} (f : Buffer → α) : Prop :=
  ∀ (b : Buffer) (cs : List Char), cs.length = b.cursor.rest.length →
    f { b with cursor := { b.cursor with rest := cs } } = f b

/-- `Trail p b ms`: a run of the rule `p` from the buffer `b` takes it through the states `ms`.
The buffer changes where a token is fetched and where the first one is taken, and nowhere else.
What comes next is known only from tokens that have been fetched. -/
inductive Trail : {α : Type} → Parser α → Buffer → List Buffer → Prop where
  | look {α : Type} {f : Buffer → Except Failure α} (hf : IgnoresText f) (b : Buffer) :
      Trail (reading f) b []
  | fetch (n : Nat) (b : Buffer) :
      Trail (pull n : Parser Unit) b ((List.range n).map fun i => stateOf (pull (i + 1) b))
  | take (b : Buffer) : Trail shift b [stateOf (shift b)]
  | next {α β : Type} {p : Parser α} {q : α → Parser β} {b b' : Buffer} {a : α}
      {ms ms' : List Buffer} (hp : Trail p b ms) (h : p b = .ok a b') (hq : Trail (q a) b' ms') :
      Trail (p >>= q) b (ms ++ ms')
  | stop {α β : Type} {p : Parser α} (q : α → Parser β) {b b' : Buffer} {f : Failure}
      {ms : List Buffer} (hp : Trail p b ms) (h : p b = .error f b') : Trail (p >>= q) b ms
  | relabel {α : Type} {p : Parser α} (g : Buffer → Failure → Failure) {b : Buffer}
      {ms : List Buffer} (hp : Trail p b ms) : Trail (relabel g p) b ms

/-! ## Careful rules -/

/-- A failure `f` that leaves the buffer `b` as it should be. -/
structure LeavesSlim (f : Failure) (b : Buffer) : Prop where
  slim : b.Slim
  inReach : ∀ offset n, f ≠ .beyondCapacity offset n

/-- What is shown of a run of `p` from `b`.  A failure that `Excuse` allows may leave any buffer. -/
structure Careful {α : Type} (Excuse : Failure → Prop) (p : Parser α) (b : Buffer)
    (Post : α → Buffer → Prop) : Prop where
  /-- The buffer is tidy all the time. -/
  trail : ∃ ms, Trail p b ms ∧ ∀ m ∈ ms, m.Tidy
  /-- Another capacity makes no difference. -/
  blind : ∀ n, minLookahead ≤ n → p (b.withCapacity n) = mapState (·.withCapacity n) (p b)
  answer : ∀ a b', p b = .ok a b' → Post a b'
  failure : ∀ f b', p b = .error f b' → LeavesSlim f b' ∨ Excuse f

section Composition

variable {α β : Type} {Excuse : Failure → Prop} {p : Parser α} {q : α → Parser β} {b : Buffer}
  {R Post : α → Buffer → Prop} {Goal : β → Buffer → Prop}

theorem careful_reading {f : Buffer → Except Failure α} (hp : p = reading f)
    (htext : IgnoresText f) (hblind : ∀ n, minLookahead ≤ n → f (b.withCapacity n) = f b)
    (hanswer : ∀ a, f b = .ok a → Post a b)
    (hfailure : ∀ e, f b = .error e → LeavesSlim e b ∨ Excuse e) : Careful Excuse p b Post := by
  subst hp
  refine ⟨⟨[], .look htext b, by simp⟩, fun n hn => ?_, fun a b' h => ?_, fun e b' h => ?_⟩
  · rw [reading, reading, hblind n hn]
    cases f b with
    | ok a => rfl
    | error e => rfl
  · rw [reading] at h
    split at h
    · next a' hf =>
      cases h
      exact hanswer a hf
    · cases h
  · rw [reading] at h
    split at h
    · cases h
    · next e' hf =>
      cases h
      exact hfailure e hf

/-- A rule that looks at the buffer and does not fail. -/
theorem careful_gets {f : Buffer → α} (hp : p = reading fun b => .ok (f b))
    (htext : IgnoresText f) (hblind : ∀ n, f (b.withCapacity n) = f b) (h : Post (f b) b) :
    Careful Excuse p b Post := by
  refine careful_reading hp (fun b cs hcs => ?_) (fun n _ => ?_) (fun a ha => ?_) (fun e he => ?_)
  · rw [htext b cs hcs]
  · rw [hblind]
  · cases ha
    exact h
  · cases he

theorem careful_pure {a : α} (h : Post a b) : Careful Excuse (pure a) b Post :=
  careful_gets (f := fun _ => a) rfl (fun _ _ _ => rfl) (fun _ => rfl) h

/-- A failure other than a look out of reach may end the run of a slim buffer. -/
theorem careful_throw {e : Failure} (hreach : ∀ offset n, e ≠ .beyondCapacity offset n)
    (h : b.Slim ∨ Excuse e) : Careful Excuse (throw e : Parser α) b Post := by
  refine careful_reading (f := fun _ => .error e) rfl
    (fun _ _ _ => rfl) (fun _ _ => rfl) (fun a ha => ?_) (fun e he => ?_)
  · cases ha
  · cases he
    exact h.imp_left fun hslim => ⟨hslim, hreach⟩

theorem careful_fault {x : ParseFault} (h : b.Slim ∨ Excuse (.grammatical ⟨x, anonymous⟩)) :
    Careful Excuse (fail x : Parser α) b Post :=
  careful_throw (fun _ _ h => by cases h) h

theorem careful_fail {x : ParseFault} (h : b.Slim) : Careful Excuse (fail x : Parser α) b Post :=
  careful_fault (.inl h)

/-- Careful rules compose: the second one starts where the first one ends. -/
theorem Careful.bind (hp : Careful Excuse p b R)
    (hq : ∀ a b', R a b' → Careful Excuse (q a) b' Goal) : Careful Excuse (p >>= q) b Goal := by
  obtain ⟨ms, htrail, hms⟩ := hp.trail
  have hrun : ∀ b, (p >>= q) b = EStateM.bind p q b := fun _ => rfl
  cases hpb : p b with
  | ok a b' =>
    have hnext := hq a b' (hp.answer a b' hpb)
    obtain ⟨ms', htrail', hms'⟩ := hnext.trail
    have hsame : (p >>= q) b = q a b' := by rw [hrun, EStateM.bind, hpb]
    refine ⟨⟨ms ++ ms', .next htrail hpb htrail', ?_⟩, fun n hn => ?_, ?_, ?_⟩
    · intro m hm
      exact (List.mem_append.1 hm).elim (hms m) (hms' m)
    · rw [hsame, ← hnext.blind n hn, hrun, EStateM.bind, hp.blind n hn, hpb]
      rfl
    · rw [hsame]
      exact hnext.answer
    · rw [hsame]
      exact hnext.failure
  | error f b' =>
    have hsame : (p >>= q) b = .error f b' := bind_error hpb q
    refine ⟨⟨ms, .stop q htrail hpb, hms⟩, fun n hn => ?_, ?_, ?_⟩
    · rw [hsame, hrun, EStateM.bind, hp.blind n hn, hpb]
      rfl
    · rw [hsame]
      nofun
    · rw [hsame]
      intro f' b'' h
      cases h
      exact hp.failure f b' hpb

theorem Careful.mono (hp : Careful Excuse p b R) (h : ∀ a b', R a b' → Post a b') :
    Careful Excuse p b Post :=
  ⟨hp.trail, hp.blind, fun a b' hpb => h a b' (hp.answer a b' hpb), hp.failure⟩

end Composition

/-! ## Fetching -/

/-- Fetching puts at most as many tokens behind the queue as are asked for. -/
theorem pull_queue (n : Nat) (b : Buffer) :
    (stateOf (pull n b)).capacity = b.capacity ∧
      ∃ ts, (stateOf (pull n b)).queue = b.queue ++ ts ∧ ts.length ≤ n := by
  induction n generalizing b with
  | zero => exact ⟨rfl, [], by simp [pull, stateOf]⟩
  | succ n ih =>
    rw [pull]
    split
    · exact ⟨rfl, [], by simp [stateOf]⟩
    · cases b.cursor.fetch with
      | error e c => exact ⟨rfl, [], by simp [stateOf]⟩
      | ok t c =>
        simp only
        split
        · exact ⟨rfl, [], by simp [stateOf]⟩
        · obtain ⟨hcapacity, ts, hts, hlength⟩ := ih { b with cursor := c, queue := b.queue ++ [t] }
          refine ⟨hcapacity, t :: ts, ?_, Nat.succ_le_succ hlength⟩
          rw [hts, List.append_assoc, List.singleton_append]

/-- Fetching does not depend on the capacity. -/
theorem pull_withCapacity (n : Nat) (b : Buffer) (k : Int) :
    pull n (b.withCapacity k) = mapState (·.withCapacity k) (pull n b) := by
  induction n generalizing b with
  | zero => rfl
  | succ n ih =>
    have hexhausted : (b.withCapacity k).exhausted = b.exhausted := rfl
    have hcursor : (b.withCapacity k).cursor = b.cursor := rfl
    rw [pull, pull, hexhausted, hcursor]
    by_cases hex : b.exhausted = true
    · rw [if_pos hex, if_pos hex]
      rfl
    · rw [if_neg hex, if_neg hex]
      cases b.cursor.fetch with
      | error e c => rfl
      | ok t c =>
        dsimp only
        by_cases hend : t.isEnd = true
        · rw [if_pos hend, if_pos hend]
          rfl
        · rw [if_neg hend, if_neg hend]
          exact ih { b with cursor := c, queue := b.queue ++ [t] }

/-- The token at `offset` may be looked at: it is the first one, or the second one behind a name
or a number. -/
def InSight (b : Buffer) (offset : Int) : Prop :=
  offset = 0 ∨ offset = 1 ∧ ∃ t, b.queue.head? = some t ∧ t.Leads

section Looks

variable {b : Buffer} {offset : Int}

theorem InSight.nonneg (h : InSight b offset) : 0 ≤ offset := by
  rcases h with rfl | ⟨rfl, -⟩
  · decide
  · decide

theorem InSight.lt (h : InSight b offset) {capacity : Int} (hcap : minLookahead ≤ capacity) :
    offset < capacity := by
  rw [minLookahead] at hcap
  rcases h with rfl | ⟨rfl, -⟩ <;> omega

/-- Fetching what a look needs keeps the buffer tidy all along. -/
theorem tidy_pull (h : b.Tidy) (hoffset : InSight b offset) {n : Nat}
    (hn : n ≤ (offset + 1).toNat - b.queue.length) : (stateOf (pull n b)).Tidy := by
  obtain ⟨hcapacity, ts, hqueue, hlength⟩ := pull_queue n b
  have hreach : minLookahead ≤ (stateOf (pull n b)).capacity := hcapacity ▸ h.reach
  rcases hoffset with rfl | ⟨rfl, t, ht, hleads⟩
  · cases hq : b.queue with
    | nil =>
      -- the first token is fetched, or none
      rw [hq] at hqueue hn
      refine Slim.tidy ⟨hreach, ?_⟩
      rw [hqueue, List.nil_append]
      exact hlength.trans hn
    | cons t us =>
      -- there is a first token, and nothing is fetched
      obtain rfl : n = 0 := by
        rw [hq, List.length_cons] at hn
        omega
      exact h
  · obtain ⟨us, hus⟩ : ∃ us, b.queue = t :: us := by
      cases hq : b.queue with
      | nil =>
        rw [hq] at ht
        cases ht
      | cons u us =>
        rw [hq] at ht
        cases ht
        exact ⟨us, rfl⟩
    have hshort := h.short
    rw [hus, List.length_cons] at hn hshort
    rw [hus, List.cons_append] at hqueue
    refine ⟨hreach, ?_, fun t' u ws hq => ?_⟩
    · rw [hqueue, List.length_cons, List.length_append]
      omega
    · rw [hqueue] at hq
      exact (List.cons.inj hq).1 ▸ hleads

/-- How many tokens a look at `offset` has to fetch, unless it is out of reach. -/
def need (offset : Int) : Parser Nat := reading fun b =>
  if b.capacity ≤ offset then .error (.beyondCapacity offset b.capacity)
  else .ok ((offset + 1).toNat - b.queue.length)

theorem fill_eq (offset : Int) : fill offset = need offset >>= fun n => (pull n : Parser Unit) := by
  funext b
  show fill offset b = EStateM.bind (need offset) _ b
  unfold fill EStateM.bind need reading
  by_cases hcap : b.capacity ≤ offset
  · simp only [if_pos hcap]
  · simp only [if_neg hcap]

theorem careful_need {Excuse : Failure → Prop} (h : b.Tidy) (hoffset : InSight b offset) :
    Careful Excuse (need offset) b fun n b' =>
      b' = b ∧ n = (offset + 1).toNat - b.queue.length := by
  have hnot : ∀ n, minLookahead ≤ n → ¬ n ≤ offset := fun n hn => Int.not_le.2 (hoffset.lt hn)
  refine careful_reading rfl (fun _ _ _ => rfl) (fun n hn => ?_) (fun n ha => ?_) (fun e he => ?_)
  · show (if n ≤ offset then _ else _) = _
    rw [if_neg (hnot n hn), if_neg (hnot _ h.reach)]
    rfl
  · rw [if_neg (hnot _ h.reach)] at ha
    cases ha
    exact ⟨rfl, rfl⟩
  · rw [if_neg (hnot _ h.reach)] at he
    cases he

/-- A look keeps the first token, and brings none behind it unless it is a look at the second. -/
theorem careful_fill {Excuse : Failure → Prop} (h : b.Tidy) (hoffset : InSight b offset) :
    Careful Excuse (fill offset) b fun _ b' => b'.Tidy ∧
      (∀ t, b.queue.head? = some t → b'.queue.head? = some t) ∧
      (offset = 0 → b.Slim → b'.Slim) := by
  rw [fill_eq]
  refine (careful_need h hoffset).bind ?_
  rintro n b ⟨rfl, hn⟩
  have htidy := tidy_pull h hoffset hn.le
  have hahead := b.pull_ahead n
  obtain ⟨-, ts, hqueue, hlength⟩ := pull_queue n b
  refine ⟨⟨_, .fetch n b, fun m hm => ?_⟩, fun k _ => pull_withCapacity n b k, ?_, ?_⟩
  · obtain ⟨i, hi, rfl⟩ := List.mem_map.1 hm
    rw [List.mem_range] at hi
    exact tidy_pull h hoffset (by omega)
  · intro u b' hrun
    rw [hrun] at htidy hqueue
    refine ⟨htidy, fun t ht => ?_, fun hzero hslim => ⟨htidy.reach, ?_⟩⟩
    · rw [show b'.queue = _ from hqueue, List.head?_append, ht, Option.some_or]
    · rw [show b'.queue = _ from hqueue, List.length_append]
      have hshort := hslim.short
      rw [hzero] at hn
      omega
  · intro f b' hrun
    rw [hrun] at htidy hqueue hahead
    obtain ⟨hsame, hfailure, hfew⟩ := hahead
    refine .inl ⟨⟨htidy.reach, ?_⟩, ?_⟩
    · have hle := b.length_queue_le
      have hle' := b'.length_queue_le
      have hlen := hsame.length_eq
      have hfar : offset < 2 := hoffset.lt (Int.le_refl _)
      rw [List.length_nil] at hlen
      omega
    · rcases refuses_of_ahead hfailure with ⟨e, rfl, -⟩ | ⟨text, e, -, -, -, rfl⟩
      · exact nofun
      · exact nofun

theorem careful_peek {Excuse : Failure → Prop} (h : b.Tidy) (hoffset : InSight b offset) :
    Careful Excuse (peek offset) b fun r b' => b'.Tidy ∧
      (∀ t, b.queue.head? = some t → b'.queue.head? = some t) ∧
      (offset = 0 → (b.Slim → b'.Slim) ∧ r = b'.queue.head?) := by
  refine (careful_fill h hoffset).bind fun _ b1 ⟨htidy, hhead, hslim⟩ => ?_
  refine careful_gets (f := fun b => b.queue[offset.toNat]?) ?_ (fun _ _ _ => rfl) (fun _ => rfl)
    ⟨htidy, hhead, fun hzero => ⟨hslim hzero, ?_⟩⟩
  · funext b
    rw [buffered, if_pos hoffset.nonneg, reading]
  · rw [hzero, List.head?_eq_getElem?]
    rfl

theorem careful_hasKind_first {Excuse : Failure → Prop} (h : b.Tidy) (k : Kind) :
    Careful Excuse (hasKind k 0) b fun r b' => b'.Tidy ∧ (b.Slim → b'.Slim) ∧
      (r = true → ∃ t, b'.queue.head? = some t ∧ t.answers k = true) := by
  refine (careful_peek h (.inl rfl)).bind fun r b1 ⟨htidy, _, hfirst⟩ => ?_
  obtain ⟨hslim, rfl⟩ := hfirst rfl
  exact careful_pure ⟨htidy, hslim, (Option.any_eq_true _ _).1⟩

/-- A look at the second token leaves a first one behind which one may look again. -/
theorem careful_check_second {Excuse : Failure → Prop} (h : b.Tidy) (hsight : InSight b 1)
    (p : Particle) : Careful Excuse (check p 1) b fun _ b' => b'.Tidy ∧ InSight b' 1 := by
  refine (careful_peek h hsight).bind fun r b1 ⟨htidy, hhead, _⟩ => careful_pure ⟨htidy, ?_⟩
  obtain ⟨-, t, ht, hleads⟩ := hsight.resolve_left (by decide)
  exact .inr ⟨rfl, t, hhead t ht, hleads⟩

/-- A second token is looked at where the first one answers to a kind of names or numbers. -/
theorem careful_nextTwo {Excuse : Failure → Prop} (h : b.Tidy) {k : Kind}
    (hk : ∀ t : Token, t.answers k = true → t.Leads) (p : Particle) :
    Careful Excuse (do if ← hasKind k 0 then check p 1 else return false) b
      fun _ b' => b'.Tidy := by
  refine (careful_hasKind_first h k).bind fun r b1 ⟨htidy, _, hfirst⟩ => ?_
  by_cases hr : r = true
  · obtain ⟨t, ht, hanswers⟩ := hfirst hr
    rw [if_pos hr]
    exact (careful_check_second htidy (.inr ⟨rfl, t, ht, hk t hanswers⟩) p).mono fun _ _ h => h.1
  · rw [if_neg hr]
    exact careful_pure htidy

end Looks

/-! ## Rules that leave at most one token buffered -/

/-- The rule leads from a tidy buffer to a slim one. -/
def Frugal {α : Type} (Excuse : Failure → Prop) (p : Parser α) : Prop :=
  ∀ b : Buffer, b.Tidy → Careful Excuse p b fun _ b' => b'.Slim

/-- The rule leads from a slim buffer to a slim one. -/
def Keeps {α : Type} (Excuse : Failure → Prop) (p : Parser α) : Prop :=
  ∀ b : Buffer, b.Slim → Careful Excuse p b fun _ b' => b'.Slim

/-- The rule takes the first token, or looks at it and answers that there is nothing to take. -/
def Optional {α : Type} (Excuse : Failure → Prop) (p : Parser (Option α)) : Prop :=
  ∀ b : Buffer, b.Tidy → Careful Excuse p b fun r b' =>
    b'.Tidy ∧ (r.isSome = true ∨ b.Slim → b'.Slim)

section Frugality

variable {α β : Type} {Excuse : Failure → Prop} {p : Parser α} {q : α → Parser β}

theorem Frugal.keeps (hp : Frugal Excuse p) : Keeps Excuse p := fun b hb => hp b hb.tidy

theorem Frugal.bind (hp : Frugal Excuse p) (hq : ∀ a, Keeps Excuse (q a)) :
    Frugal Excuse (p >>= q) := fun b hb => (hp b hb).bind fun a b' => hq a b'

theorem Keeps.bind (hp : Keeps Excuse p) (hq : ∀ a, Keeps Excuse (q a)) :
    Keeps Excuse (p >>= q) := fun b hb => (hp b hb).bind fun a b' => hq a b'

theorem keeps_pure (a : α) : Keeps Excuse (pure a) := fun _ hb => careful_pure hb

theorem keeps_fail (x : ParseFault) : Keeps Excuse (fail x : Parser α) := fun _ hb =>
  careful_fail hb

theorem Optional.frugal {p : Parser (Option α)} {q : Option α → Parser β}
    (hp : Optional Excuse p) (hsome : ∀ a, Keeps Excuse (q (some a)))
    (hnone : Frugal Excuse (q none)) : Frugal Excuse (p >>= q) := by
  intro b hb
  refine (hp b hb).bind fun r b' ⟨htidy, hslim⟩ => ?_
  cases r with
  | some a => exact hsome a b' (hslim (.inl rfl))
  | none => exact hnone b' htidy

theorem Optional.keeps {p : Parser (Option α)} {q : Option α → Parser β}
    (hp : Optional Excuse p) (hsome : ∀ a, Keeps Excuse (q (some a)))
    (hnone : Keeps Excuse (q none)) : Keeps Excuse (p >>= q) := by
  intro b hb
  refine (hp b hb.tidy).bind fun r b' ⟨_, hslim⟩ => ?_
  cases r with
  | some a => exact hsome a b' (hslim (.inl rfl))
  | none => exact hnone b' (hslim (.inr hb))

/-! ### Single tokens -/

theorem keeps_cursorPos : Keeps Excuse cursorPos := fun _ hb =>
  careful_gets (f := fun b => b.cursor.pos) rfl (fun _ _ _ => rfl) (fun _ => rfl) hb

theorem keeps_peek : Keeps Excuse (peek 0) := fun _ hb =>
  (careful_peek hb.tidy (.inl rfl)).mono fun _ _ h => (h.2.2 rfl).1 hb

theorem keeps_check (c : Particle) : Keeps Excuse (check c 0) := fun _ hb =>
  (careful_hasKind_first hb.tidy _).mono fun _ _ h => h.2.1 hb

/-- The first of at most two tokens is taken, so at most one is left. -/
theorem frugal_shift : Frugal Excuse shift := by
  intro b hb
  have hslim : (stateOf (shift b)).Slim := by
    have hshort := hb.short
    unfold shift
    split
    · next hq => exact ⟨hb.reach, by simp [stateOf, hq]⟩
    · next t ts hq =>
      rw [hq, List.length_cons] at hshort
      exact ⟨hb.reach, Nat.le_of_succ_le_succ hshort⟩
  refine ⟨⟨_, .take b, fun m hm => ?_⟩, fun n _ => ?_, fun a b' h => ?_, fun f b' h => ?_⟩
  · rw [List.mem_singleton.1 hm]
    exact hslim.tidy
  · have hqueue : (b.withCapacity n).queue = b.queue := rfl
    rw [shift, shift, hqueue]
    cases b.queue with
    | nil => rfl
    | cons t ts => rfl
  · rw [h] at hslim
    exact hslim
  · unfold shift at h
    split at h
    · cases h
    · cases h

theorem frugal_pop : Frugal Excuse pop := fun _ hb =>
  (careful_fill hb (.inl rfl)).bind fun _ b' h => frugal_shift b' h.1

theorem frugal_advance (expected : String) : Frugal Excuse (advance expected) := by
  refine frugal_pop.bind fun r => ?_
  cases r with
  | some t => exact keeps_pure t
  | none => exact keeps_cursorPos.bind fun p => keeps_fail _

theorem optional_accept? (c : Particle) : Optional Excuse (accept? c) := by
  intro b hb
  refine (careful_hasKind_first hb _).bind fun r b1 ⟨htidy, hslim, _⟩ => ?_
  by_cases hr : r = true
  · rw [if_pos hr]
    exact ((frugal_advance _).bind fun t => keeps_pure (some t)) b1 htidy |>.mono
      fun _ _ h => ⟨h.tidy, fun _ => h⟩
  · rw [if_neg hr]
    exact careful_pure ⟨htidy, fun h => hslim (h.resolve_left (by decide))⟩

theorem optional_operator? (ops : List Particle) : Optional Excuse (operator? ops) := by
  intro b hb
  refine (careful_peek hb (.inl rfl)).bind fun r b1 ⟨htidy, _, hfirst⟩ => ?_
  have hnone : Careful Excuse (pure none : Parser (Option Particle)) b1 fun r b' =>
      b'.Tidy ∧ (r.isSome = true ∨ b.Slim → b'.Slim) :=
    careful_pure ⟨htidy, fun h => (hfirst rfl).1 (h.resolve_left (by decide))⟩
  split
  · next p _ =>
    split
    · exact ((frugal_advance _).bind fun _ => keeps_pure (some p)) b1 htidy |>.mono
        fun _ _ h => ⟨h.tidy, fun _ => h⟩
    · exact hnone
  · exact hnone

theorem frugal_unclosed (message : String) : Frugal Excuse (unclosed message) := by
  refine frugal_pop.bind fun r => ?_
  cases r with
  | some t => exact keeps_fail _
  | none =>
    have hplace : Keeps Excuse (reading fun b => .ok (b.lastPos.getD b.cursor.pos)) :=
      fun _ hb => careful_gets (f := fun b => b.lastPos.getD b.cursor.pos) rfl (fun _ _ _ => rfl)
        (fun _ => rfl) hb
    exact hplace.bind fun pos => keeps_fail (.unclosed message pos none)

theorem frugal_expectClosing (c : Particle) (message : String) :
    Frugal Excuse (expectClosing c message) :=
  (optional_accept? c).frugal (fun _ => keeps_pure ()) (frugal_unclosed message)

theorem frugal_parameter : Frugal Excuse parameter := by
  refine (frugal_advance _).bind fun t => ?_
  split
  · exact keeps_pure _
  · exact keeps_fail _

theorem frugal_number (expected : String) : Frugal Excuse (number expected) := by
  refine (frugal_advance _).bind fun t => ?_
  split
  · exact keeps_pure _
  · exact keeps_fail _

/-! ### Items and ranges -/

/-- A rule that is out of fuel says so. -/
def Spent (f : Failure) : Prop := ∃ pos file, f = .grammatical ⟨.noProgress pos, file⟩

theorem frugal_stuck : Frugal Spent (stuck : Parser α) := fun _ hb =>
  Careful.bind (R := fun _ b' => b'.Tidy)
    (careful_gets (f := fun b => b.cursor.pos) rfl (fun _ _ _ => rfl) (fun _ => rfl) hb)
    fun _ _ _ => careful_fault (.inr ⟨_, _, rfl⟩)

theorem keeps_answer (r : Except ConversionError α) : Keeps Excuse (answer r) := by
  cases r with
  | ok a => exact keeps_pure a
  | error e => exact fun _ hb => careful_throw (fun _ _ h => by cases h) (.inl hb)

theorem frugal_rangeLength : Frugal Excuse rangeLength := by
  refine (frugal_number _).bind fun r => (keeps_answer _).bind fun whole => ?_
  split
  · exact keeps_pure _
  · exact keeps_fail _

theorem keeps_rangeStep : Keeps Excuse rangeStep :=
  (optional_accept? .semicolon).keeps
    (fun _ => (frugal_number _).keeps.bind fun _ => keeps_pure _) (keeps_pure none)

theorem frugal_range (pos : Position) : Frugal Excuse (range pos) := by
  refine (frugal_number _).bind fun r => ?_
  refine (frugal_advance _).keeps.bind fun _ => ?_
  refine frugal_rangeLength.keeps.bind fun n => ?_
  refine keeps_rangeStep.bind fun step => ?_
  refine (frugal_expectClosing _ _).keeps.bind fun _ => ?_
  exact (keeps_answer _).bind fun _ => keeps_pure _

variable {item : Parser α}

theorem frugal_dueItem (hitem : Frugal Excuse item) : Frugal Excuse (dueItem item) :=
  (optional_accept? .comma).frugal (fun _ => keeps_fail _) hitem

theorem frugal_moreItems (closing : Particle) (hitem : Frugal Spent item) (fuel : Nat) :
    Frugal Spent (moreItems closing item fuel) := by
  induction fuel with
  | zero => exact frugal_stuck
  | succ fuel ih =>
    rw [moreItems]
    refine (optional_accept? closing).frugal (fun _ => keeps_pure []) ?_
    refine (optional_accept? .comma).frugal (fun comma => ?_)
      ((frugal_advance _).bind fun found => keeps_fail _)
    refine (keeps_check closing).bind fun r => ?_
    split
    · exact keeps_fail _
    · exact (frugal_dueItem hitem).keeps.bind fun x => ih.keeps.bind fun xs => keeps_pure _

theorem frugal_delimited (fuel : Nat) (closing : Particle) (hitem : Frugal Spent item) :
    Frugal Spent (delimited fuel closing item) := by
  refine (optional_accept? closing).frugal (fun _ => keeps_pure []) ?_
  refine (frugal_dueItem hitem).bind fun x => ?_
  exact (frugal_moreItems closing hitem fuel).keeps.bind fun xs => keeps_pure _

end Frugality

/-! ## Expressions -/

section Expressions

variable {expr operand : Parser Expr}

theorem frugal_call (hexpr : Frugal Spent expr) (fuel : Nat) (s : String) :
    Frugal Spent (call fuel expr s) := by
  refine (frugal_advance _).bind fun t => ?_
  refine (frugal_advance _).keeps.bind fun _ => ?_
  exact (frugal_delimited fuel _ hexpr).keeps.bind fun args => keeps_pure _

theorem frugal_lambda (hexpr : Frugal Spent expr) (fuel : Nat) :
    Frugal Spent (lambda fuel expr) := by
  refine (frugal_advance _).bind fun t => ?_
  refine (frugal_advance _).keeps.bind fun _ => ?_
  refine (frugal_delimited fuel _ frugal_parameter).keeps.bind fun ps => ?_
  exact hexpr.keeps.bind fun body => keeps_pure _

/-- Behind a name one may look at a second token. -/
theorem careful_named (hexpr : Frugal Spent expr) (fuel : Nat) (s : String) {b : Buffer}
    (h : b.Tidy) (hsight : InSight b 1) :
    Careful Spent (named fuel expr s) b fun _ b' => b'.Slim := by
  refine (careful_check_second h hsight .leftBrace).bind fun r b1 ⟨h1, hsight1⟩ => ?_
  split
  · exact frugal_call hexpr fuel s b1 h1
  have hlambda : Careful Spent (atLambda s) b1 fun _ b' => b'.Tidy := by
    unfold atLambda
    split
    · exact (careful_check_second h1 hsight1 .leftParen).mono fun _ _ h => h.1
    · exact careful_pure h1
  refine hlambda.bind fun r b2 h2 => ?_
  split
  · exact frugal_lambda hexpr fuel b2 h2
  · exact ((frugal_advance _).bind fun t => keeps_pure _) b2 h2

theorem frugal_aggregate (hexpr : Frugal Spent expr) (fuel : Nat) :
    Frugal Spent (aggregate fuel expr) := by
  refine (frugal_advance _).bind fun t b1 h1 => ?_
  have hrange : Careful Spent atRange b1 fun _ b' => b'.Tidy :=
    careful_nextTwo h1.tidy (fun _ hu => .inr (Token.answers_integer.1 hu)) .range
  refine hrange.bind fun r b2 h2 => ?_
  split
  · exact frugal_range t.pos b2 h2
  · exact ((frugal_delimited fuel _ hexpr).bind fun vs => keeps_pure _) b2 h2

theorem frugal_group (hexpr : Frugal Spent expr) : Frugal Spent (group expr) := by
  refine (frugal_advance _).bind fun t => ?_
  refine hexpr.keeps.bind fun inner => ?_
  exact (frugal_expectClosing _ _).keeps.bind fun _ => keeps_pure _

theorem frugal_primary (hexpr : Frugal Spent expr) (fuel : Nat) :
    Frugal Spent (primary fuel expr) := by
  intro b hb
  refine (careful_peek hb (.inl rfl)).bind fun next b1 ⟨h1, _, hfirst⟩ => ?_
  obtain ⟨-, rfl⟩ := hfirst rfl
  split
  · exact ((frugal_advance _).bind fun t => keeps_pure _) b1 h1
  · next s hs =>
    obtain ⟨t, ht, hname⟩ := Option.map_eq_some_iff.1 hs
    exact careful_named hexpr fuel s h1 (.inr ⟨rfl, t, ht, .inl ⟨s, hname⟩⟩)
  · exact frugal_group hexpr b1 h1
  · exact frugal_aggregate hexpr fuel b1 h1
  · next hnumber hname _ _ =>
    -- the first token is no name and no number, so there is no second one
    have hslim : b1.Slim := by
      refine h1.slim_of_head fun t ht hleads => ?_
      rw [ht, Option.map_some] at hnumber hname
      rcases hleads with ⟨s, hs⟩ | ⟨v, hv⟩
      · exact hname s (by rw [hs])
      · exact hnumber v (by rw [hv])
    exact (keeps_cursorPos.bind fun p => keeps_fail _) b1 hslim

theorem frugal_unary (hoperand : Frugal Spent operand) (fuel : Nat) :
    Frugal Spent (unary operand fuel) := by
  induction fuel with
  | zero => exact frugal_stuck
  | succ fuel ih =>
    rw [unary]
    exact (optional_operator? _).frugal
      (fun op => ih.keeps.bind fun e => keeps_pure _) hoperand

/-- The loop of a tier starts behind an operand, where at most one token is buffered. -/
theorem keeps_chain (ops : List Particle) (hoperand : Frugal Spent operand) (fuel : Nat)
    (left : Expr) : Keeps Spent (chain ops operand fuel left) := by
  induction fuel generalizing left with
  | zero => exact frugal_stuck.keeps
  | succ fuel ih =>
    rw [chain]
    exact (optional_operator? ops).keeps (fun op => hoperand.keeps.bind fun right => ih _)
      (keeps_pure left)

theorem frugal_tier (fuel : Nat) (t : Tier) (hoperand : Frugal Spent operand) :
    Frugal Spent (tier fuel t operand) :=
  hoperand.bind fun left => keeps_chain t.operators hoperand fuel left

theorem frugal_ternary {condition branch : Parser Expr} (hcondition : Frugal Spent condition)
    (hbranch : Frugal Spent branch) : Frugal Spent (ternary condition branch) := by
  refine hcondition.bind fun c => ?_
  refine (optional_accept? .question).keeps (fun _ => ?_) (keeps_pure c)
  refine hbranch.keeps.bind fun t => ?_
  refine (optional_accept? .colon).keeps (fun _ => ?_) (keeps_peek.bind fun r => keeps_fail _)
  exact hbranch.keeps.bind fun e => keeps_pure _

theorem frugal_expression (fuel : Nat) : Frugal Spent (expression fuel) := by
  induction fuel with
  | zero => exact frugal_stuck
  | succ fuel ih =>
    have hunary := frugal_unary (frugal_primary ih (fuel + 1)) (fuel + 1)
    exact frugal_ternary (frugal_tier _ .equality (frugal_tier _ .comparison (frugal_tier _ .logic
      (frugal_tier _ .term (frugal_tier _ .factor hunary))))) ih

end Expressions

/-! ## Statements -/

/-- A failure of a rule that keeps its contract is not for want of fuel. -/
theorem not_spent_of_meets {α : Type} {file : String} {p : Parser α} {b b' : Buffer}
    {P : α → List Token → List Token → Prop} (h : MeetsIn ParseFault.Possible file p b P)
    {f : Failure} (hrun : p b = .error f b') : ¬ Spent f := by
  rintro ⟨pos, source, rfl⟩
  rw [MeetsIn, MeetsWith, hrun] at h
  obtain ⟨ts, -, hverdict⟩ := h
  cases hverdict with
  | scanning hf => rcases refuses_of_ahead hf with ⟨e, he, -⟩ | ⟨text, e, -, -, -, he⟩ <;> cases he
  | fault hpossible => exact hpossible

theorem Careful.of_meets {α : Type} {Excuse : Failure → Prop} {file : String} {p : Parser α}
    {b : Buffer} {P : α → List Token → List Token → Prop} {Post : α → Buffer → Prop}
    (h : Careful Spent p b Post) (hmeets : MeetsIn ParseFault.Possible file p b P) :
    Careful Excuse p b Post :=
  ⟨h.trail, h.blind, h.answer, fun f b' hrun =>
    .inl ((h.failure f b' hrun).resolve_right (not_spent_of_meets hmeets hrun))⟩

/-- How much is left to read, as the source of fuel. -/
theorem careful_weight {Excuse : Failure → Prop} {b : Buffer} {P : Buffer → Prop} (h : P b) :
    Careful Excuse (reading fun b => .ok b.weight) b fun _ b' => P b' := by
  refine careful_gets rfl (fun b cs hcs => ?_) (fun _ => rfl) h
  rw [weight, weight, hcs]

section Statements

variable {Excuse : Failure → Prop}

theorem frugal_wholeExpression : Frugal Excuse wholeExpression := by
  intro b hb
  refine Careful.of_meets ?_ (meets_wholeExpression b)
  have hrun : wholeExpression = reading (fun b => .ok b.weight) >>= fun w => expression (w + 1) :=
    rfl
  rw [hrun]
  exact (careful_weight hb).bind fun w b' hb' => frugal_expression (w + 1) b' hb'

theorem frugal_assignment : Frugal Excuse assignment := by
  refine (frugal_advance _).bind fun target => ?_
  split
  · refine (frugal_advance _).keeps.bind fun _ => ?_
    exact frugal_wholeExpression.keeps.bind fun e => keeps_pure _
  · exact keeps_fail _

theorem frugal_bareStatement : Frugal Excuse bareStatement := by
  intro b hb
  have hassign : Careful Excuse atAssignment b fun _ b' => b'.Tidy :=
    careful_nextTwo hb (fun _ ht => .inl (Token.answers_identifier.1 ht)) .assign
  refine hassign.bind fun r b1 h1 => ?_
  split
  · exact frugal_assignment b1 h1
  · exact (frugal_wholeExpression.bind fun e => keeps_pure _) b1 h1

/-- The name of the source makes no failure one of capacity. -/
theorem inFile_ne_beyondCapacity {f : Failure} (h : ∀ offset n, f ≠ .beyondCapacity offset n)
    (file : String) (offset n : Int) : f.inFile file ≠ .beyondCapacity offset n := by
  cases f with
  | beyondCapacity offset' n' => exact absurd rfl (h offset' n')
  | lexical e | grammatical e | breakdown e | beforeBuffer e => exact nofun

theorem frugal_statement : Frugal Excuse statement := by
  intro b hb
  have hbare : Careful (fun _ => False) bareStatement b fun _ b' => b'.Slim :=
    frugal_bareStatement b hb
  have hrun : statement = relabel (fun b f => f.inFile b.cursor.filename) bareStatement := by
    funext b
    unfold statement relabel
    cases bareStatement b with
    | ok s b' => rfl
    | error f b' => rfl
  obtain ⟨ms, htrail, hms⟩ := hbare.trail
  refine ⟨⟨ms, hrun ▸ .relabel _ htrail, hms⟩, fun n hn => ?_, fun s b' h => ?_, fun f b' h => ?_⟩
  · unfold statement
    rw [hbare.blind n hn]
    cases bareStatement b with
    | ok s b' => rfl
    | error f b' => rfl
  · unfold statement at h
    split at h
    · next s' b1 hok =>
      cases h
      exact hbare.answer s b' hok
    · cases h
  · unfold statement at h
    split at h
    · cases h
    · next f' b1 herror =>
      cases h
      have hleaves := (hbare.failure f' b' herror).resolve_right id
      exact .inl ⟨hleaves.slim, inFile_ne_beyondCapacity hleaves.inReach _⟩

theorem keeps_isEnd : Keeps Excuse isEnd := by
  intro b hb
  refine (careful_fill hb.tidy (.inl rfl)).bind fun _ b1 h1 => ?_
  exact careful_gets (f := fun b => b.queue.isEmpty) rfl (fun _ _ _ => rfl) (fun _ => rfl)
    (h1.2.2 rfl hb)

theorem keeps_statements (fuel : Nat) : Keeps Spent (statements fuel) := by
  induction fuel with
  | zero => exact frugal_stuck.keeps
  | succ fuel ih =>
    refine keeps_isEnd.bind fun r => ?_
    split
    · exact keeps_pure []
    · exact frugal_statement.keeps.bind fun s => ih.bind fun ss => keeps_pure _

theorem keeps_program : Keeps Excuse program := by
  intro b hb
  refine Careful.of_meets ?_ (meets_program b)
  have hrun : program = reading (fun b => .ok b.weight) >>= fun w => statements (w + 1) := rfl
  rw [hrun]
  exact (careful_weight hb).bind fun w b' hb' => keeps_statements (w + 1) b' hb'

end Statements

end Grammar

/-! ## Sessions -/

namespace Session

open Grammar Buffer

/-- Every step is careful, and no failure of it is excused. -/
theorem keeps_step (s : Step) : Keeps (fun _ => False) (Session.step · s) := by
  cases s with
  | statement => exact frugal_statement.keeps.bind fun s => keeps_pure _
  | isEnd => exact keeps_isEnd.bind fun r => keeps_pure _
  | program => exact keeps_program.bind fun ss => keeps_pure _
  | assignment => exact frugal_assignment.keeps.bind fun s => keeps_pure _

/-- A step leaves at most one token, whether it answers or fails. -/
theorem slim_step {b : Buffer} (h : b.Slim) (s : Step) :
    (stateOf (Session.step b s)).Slim ∧
      ∀ offset n, answerOf (Session.step b s) ≠ .error (.beyondCapacity offset n) := by
  have hstep := keeps_step s b h
  cases hrun : Session.step b s with
  | ok a b' => exact ⟨hstep.answer a b' hrun, nofun⟩
  | error f b' =>
    have hleaves := (hstep.failure f b' hrun).resolve_right id
    exact ⟨hleaves.slim, fun offset n hf => hleaves.inReach offset n (Except.error.inj hf)⟩

/-- How far the lookahead may reach makes no difference to what is asked of a parser step by
step, also after failures: from two tokens on all buffers answer alike, and hold the same tokens at
the same places.  Between steps at most one token is buffered.  Whatever is asked next, no look
is beyond the capacity, and at every moment of the step at most two tokens are buffered, the first
of two being a name or a number. -/
theorem runSteps_withCapacity (c : Config) (hc : c.Valid) (n : Int) (hn : minLookahead ≤ n)
    (source : String) (steps : List Step) :
    List.Forall₂ (fun r r' => r.1 = r'.1 ∧ r'.2 = r.2.withCapacity n)
      (runSteps Session.step (c.session source) steps)
      (runSteps Session.step (Config.session { c with maxLookahead := n } source) steps) ∧
    ∀ b ∈ statesOf Session.step (c.session source) steps, b.Slim ∧
      ∀ s, (∀ offset k, answerOf (Session.step b s) ≠ .error (.beyondCapacity offset k)) ∧
        ∃ ms, Trail (Session.step · s) b ms ∧ ∀ m ∈ ms, m.Tidy := by
  have hstart : (c.session source).Slim := ⟨hc, Nat.zero_le 1⟩
  have hallowed : Allowed Session.step (fun _ _ => True) (c.session source) steps :=
    allowed_of_forall (fun _ _ => trivial) _ _
  refine ⟨?_, fun b hb => ?_⟩
  · have hstep : ∀ (b b' : Buffer) (s : Step), b.Slim ∧ b' = b.withCapacity n → True →
        answerOf (Session.step b s) = answerOf (Session.step b' s) ∧
          (stateOf (Session.step b s)).Slim ∧
            stateOf (Session.step b' s) = (stateOf (Session.step b s)).withCapacity n := by
      rintro b _ s ⟨hslim, rfl⟩ -
      rw [(keeps_step s b hslim).blind n hn]
      refine ⟨?_, (slim_step hslim s).1, ?_⟩
      · cases Session.step b s <;> rfl
      · cases Session.step b s <;> rfl
    exact (runSteps_simulates hstep (c.session source) _ steps ⟨hstart, rfl⟩ hallowed).imp
      fun _ _ h => ⟨h.1, h.2.2⟩
  · have hslim := forall_statesOf Buffer.Slim (fun b s hslim _ => (slim_step hslim s).1)
      (c.session source) steps hstart hallowed b hb
    exact ⟨hslim, fun s => ⟨(slim_step hslim s).2, (keeps_step s b hslim).trail⟩⟩

/-- Settings with the least lookahead. -/
def nearConfig : Config := ⟨.integer, anonymous, minLookahead⟩

/-- Steps that go on after a statement has failed. -/
def resumedSteps : List Step := [.statement, .isEnd, .statement, .program]

theorem runSteps_withCapacity_resumed :
    nearConfig.Valid ∧ minLookahead ≤ Config.standardLookahead ∧
    List.Forall₂ (fun r r' => r.1 = r'.1 ∧ r'.2 = r.2.withCapacity Config.standardLookahead)
      (runSteps Session.step (nearConfig.session "f\x7bx 1\x7d y = [0 .. 2] ; z") resumedSteps)
      (runSteps Session.step
        (Config.session { nearConfig with maxLookahead := Config.standardLookahead }
          "f\x7bx 1\x7d y = [0 .. 2] ; z") resumedSteps) ∧
    ∀ b ∈ statesOf Session.step (nearConfig.session "f\x7bx 1\x7d y = [0 .. 2] ; z") resumedSteps,
      b.Slim ∧
        ∀ s, (∀ offset k, answerOf (Session.step b s) ≠ .error (.beyondCapacity offset k)) ∧
          ∃ ms, Trail (Session.step · s) b ms ∧ ∀ m ∈ ms, m.Tidy :=
  ⟨Int.le_refl _, by decide, runSteps_withCapacity _ (Int.le_refl _) _ (by decide) _ _⟩

end Session

end ExprFront
