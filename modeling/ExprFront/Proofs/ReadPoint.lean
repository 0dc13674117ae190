import ExprFront.Proofs.Ahead
import Mathlib.Data.List.Forall2

/-!
# A buffer is a place in a list of tokens

A buffer fetches lazily, passes over skipped tokens, and may fail in the middle of a fill with
tokens already queued.  None of this shows.  Seen from outside, a buffer is a list of
tokens, which the end of input or a failure follows, and a place in it: the read point.

* `ReadPoint.look` and `ReadPoint.step` say what a step answers and how it moves the read point,
  by nothing but the list and an index into it.
* `Buffer.Follows` ties a buffer to a read point.  The tokens before the read point, then those
  in the queue, then those that the cursor has still to scan, are all the tokens there are.
* `Buffer.Follows.fill` is the one lemma about filling that all steps share, and
  `Buffer.Follows.step` the simulation of one step.  `runSteps_simulates` takes it to runs.

Once a buffer has met the end of input, text that is appended to its source changes nothing, so
on a read point an append is no move at all.

Main result: `Buffer.runSteps_readPoint`.
-/

namespace ExprFront

/-! ## Runs of steps -/

section Runs

variable {σ τ ι α : Type} {step : σ → ι → Outcome σ α} {step' : τ → ι → Outcome τ α}

/-- The state that an outcome leaves. -/
def stateOf : Outcome σ α → σ
  | .ok _ s | .error _ s => s

/-- The answer or the failure of an outcome. -/
def answerOf : Outcome σ α → Except Failure α
  | .ok a _ => .ok a
  | .error f _ => .error f

/-- The states of a run of steps, the first one included. -/
def statesOf (step : σ → ι → Outcome σ α) (s : σ) (is : List ι) : List σ :=
  s :: (runSteps step s is).map Prod.snd

/-- Every step of a run fits the state that it starts from. -/
def Allowed (step : σ → ι → Outcome σ α) (Fits : σ → ι → Prop) : σ → List ι → Prop
  | _, [] => True
  | s, i :: is => Fits s i ∧ Allowed step Fits (stateOf (step s i)) is

instance Allowed.decidable (Fits : σ → ι → Prop) [∀ s i, Decidable (Fits s i)] :
    ∀ s is, Decidable (Allowed step Fits s is)
  | _, [] => .isTrue trivial
  | s, i :: is =>
    have := decidable Fits (stateOf (step s i)) is
    inferInstanceAs (Decidable (Fits s i ∧ Allowed step Fits (stateOf (step s i)) is))

theorem allowed_of_forall {Fits : σ → ι → Prop} (h : ∀ s i, Fits s i) (s : σ) (is : List ι) :
    Allowed step Fits s is := by
  induction is generalizing s with
  | nil => trivial
  | cons i is ih => exact ⟨h s i, ih _⟩

theorem runSteps_cons (s : σ) (i : ι) (is : List ι) :
    runSteps step s (i :: is) =
      (answerOf (step s i), stateOf (step s i)) :: runSteps step (stateOf (step s i)) is := by
  rw [runSteps]
  cases step s i with
  | ok a s' => rfl
  | error f s' => rfl

theorem statesOf_cons (s : σ) (i : ι) (is : List ι) :
    statesOf step s (i :: is) = s :: statesOf step (stateOf (step s i)) is := by
  rw [statesOf, runSteps_cons, statesOf, List.map_cons]

/-- What the steps that fit keep holds in every state of a run. -/
theorem forall_statesOf (Inv : σ → Prop) {Fits : σ → ι → Prop}
    (hstep : ∀ s i, Inv s → Fits s i → Inv (stateOf (step s i))) (s : σ) (is : List ι)
    (hs : Inv s) (hfits : Allowed step Fits s is) : ∀ s' ∈ statesOf step s is, Inv s' := by
  induction is generalizing s with
  | nil =>
    intro s' hs'
    rwa [List.mem_singleton.1 hs']
  | cons i is ih =>
    rw [statesOf_cons]
    exact List.forall_mem_cons.2 ⟨hs, ih _ (hstep s i hs hfits.1) hfits.2⟩

/-- If each step that fits gives one answer on related states and leaves related states, then
so does each step of a run. -/
theorem runSteps_simulates {R : σ → τ → Prop} {Fits : σ → ι → Prop}
    (hstep : ∀ s t i, R s t → Fits s i → answerOf (step s i) = answerOf (step' t i) ∧
      R (stateOf (step s i)) (stateOf (step' t i)))
    (s : σ) (t : τ) (is : List ι) (hR : R s t) (hfits : Allowed step Fits s is) :
    List.Forall₂ (fun r r' => r.1 = r'.1 ∧ R r.2 r'.2) (runSteps step s is)
      (runSteps step' t is) := by
  induction is generalizing s t with
  | nil => exact .nil
  | cons i is ih =>
    obtain ⟨hanswer, hstate⟩ := hstep s t i hR hfits.1
    rw [runSteps_cons, runSteps_cons]
    exact .cons ⟨hanswer, hstate⟩ (ih _ _ hstate hfits.2)

end Runs

/-! ## Read points -/

/-- A place in a list of tokens: how many of them lie before it, and where the last of these
stands in the source. -/
structure ReadPoint where
  consumed : Nat
  lastPos : Option Position
deriving DecidableEq, Repr

namespace ReadPoint

/-- The place before the first token. -/
def start : ReadPoint := ⟨0, none⟩

variable (all : Ahead) (capacity : Int)

/-- The token at `offset` from the read point.  Beyond the last token stands the failure, if
there is one, and else nothing. -/
def look (r : ReadPoint) (offset : Int) : Except Failure (Option Token) :=
  if capacity ≤ offset then .error (.beyondCapacity offset capacity)
  else
    match all.tokens[r.consumed + offset.toNat]?, all.failure? with
    | some t, _ => .ok (some t)
    | none, some f => .error f
    | none, none => .ok none

/-- A look with an answer made of what is found; the read point stays. -/
def ask (r : ReadPoint) (offset : Int) (answer : Option Token → Buffer.Answer) :
    Outcome ReadPoint Buffer.Answer :=
  match r.look all capacity offset with
  | .ok t => .ok (answer t) r
  | .error f => .error f r

/-- The place after the token `t`. -/
def pass (r : ReadPoint) (t : Token) : ReadPoint := ⟨r.consumed + 1, some t.pos⟩

/-- One step on a read point.  Only a pop moves it, and only past a token. -/
def step (r : ReadPoint) : Buffer.Step → Outcome ReadPoint Buffer.Answer
  | .peek offset => r.ask all capacity offset .token
  | .hasKind k offset => r.ask all capacity offset fun t => .flag (t.any (·.answers k))
  | .hasName s offset => r.ask all capacity offset fun t => .flag (t.any (·.name? = some s))
  | .isEnd => r.ask all capacity 0 fun t => .flag t.isNone
  | .pop =>
    match r.look all capacity 0 with
    | .ok (some t) => .ok (.token (some t)) (r.pass t)
    | .ok none => .ok (.token none) r
    | .error f => .error f r
  | .append _ => .ok .done r

end ReadPoint

/-! ## Buffers that follow a read point -/

namespace Buffer

/-- How far ahead the step looks. -/
def Step.offset? : Step → Option Int
  | .peek offset | .hasKind _ offset | .hasName _ offset => some offset
  | .pop | .isEnd => some 0
  | .append _ => none

/-- The step looks at no token before the read point, and text is appended only after the buffer
has met the end of input. -/
def Fits (b : Buffer) : Step → Prop
  | .peek offset | .hasKind _ offset | .hasName _ offset => 0 ≤ offset
  | .pop | .isEnd => True
  | .append _ => b.exhausted = true

instance Fits.decidable (b : Buffer) : ∀ s, Decidable (b.Fits s)
  | .peek offset | .hasKind _ offset | .hasName _ offset => inferInstanceAs (Decidable (0 ≤ offset))
  | .pop | .isEnd => .isTrue trivial
  | .append _ => inferInstanceAs (Decidable (b.exhausted = true))

/-- The buffer stands at the read point in the list of all tokens. -/
structure Follows (all : Ahead) (capacity : Int) (b : Buffer) (r : ReadPoint) : Prop where
  /-- The tokens popped, those in the queue and those still to be scanned are all tokens. -/
  tokens : all.tokens.take r.consumed ++ b.ahead.tokens = all.tokens
  failure : b.ahead.failure? = all.failure?
  capacity : b.capacity = capacity
  consumed : b.consumed = r.consumed
  lastPos : b.lastPos = r.lastPos

namespace Follows

variable {all : Ahead} {limit : Int} {b : Buffer} {r : ReadPoint}

/-- The tokens ahead of the buffer are those after the read point. -/
theorem getElem? (h : Follows all limit b r) (k : Nat) :
    b.ahead.tokens[k]? = all.tokens[r.consumed + k]? := by
  have htokens := h.tokens
  by_cases hle : r.consumed ≤ all.tokens.length
  · have hlength : (all.tokens.take r.consumed).length = r.consumed := List.length_take_of_le hle
    conv => rhs; rw [← htokens, List.getElem?_append_right (by omega), hlength]
    rw [Nat.add_sub_cancel_left]
  · rw [List.take_of_length_le (by omega)] at htokens
    have hnil : b.ahead.tokens = [] := by simpa using htokens
    rw [hnil, List.getElem?_nil, List.getElem?_eq_none (by omega)]

/-- A buffer follows its read point as long as nothing is consumed. -/
theorem of_consumes {b' : Buffer} (h : Follows all limit b r) (hb : b.Consumes [] b')
    (hconsumed : b'.consumed = b.consumed) (hlast : b'.lastPos = b.lastPos) :
    Follows all limit b' r where
  tokens := by
    have htokens := h.tokens
    rwa [hb.tokens, List.nil_append] at htokens
  failure := hb.failure.trans h.failure
  capacity := hb.capacity.trans h.capacity
  consumed := hconsumed.trans h.consumed
  lastPos := hlast.trans h.lastPos

end Follows

/-- Fetching moves no counter. -/
theorem pull_frame (n : Nat) (b : Buffer) :
    (stateOf (pull n b)).consumed = b.consumed ∧ (stateOf (pull n b)).lastPos = b.lastPos := by
  induction n generalizing b with
  | zero => exact ⟨rfl, rfl⟩
  | succ n ih =>
    rw [pull]
    split
    · exact ⟨rfl, rfl⟩
    · split
      · exact ⟨rfl, rfl⟩
      · split
        · exact ⟨rfl, rfl⟩
        · exact ih _

/-- A look beyond the capacity is refused, and the buffer stays as it is. -/
theorem fill_of_capacity_le {b : Buffer} {offset : Int} (h : b.capacity ≤ offset) :
    fill offset b = .error (.beyondCapacity offset b.capacity) b := if_pos h

namespace Follows

variable {all : Ahead} {limit : Int} {b : Buffer} {r : ReadPoint}

/-- Filling keeps the read point.  It brings the token that a look at the read point gives to its
place in the queue, or fails as the look does. -/
theorem fill (h : Follows all limit b r) {offset : Int} (h0 : 0 ≤ offset) :
    Follows all limit (stateOf (Buffer.fill offset b)) r ∧
      r.look all limit offset =
        (answerOf (Buffer.fill offset b)).map fun _ =>
          (stateOf (Buffer.fill offset b)).queue[offset.toNat]? := by
  by_cases hcap : b.capacity ≤ offset
  · rw [fill_of_capacity_le hcap, h.capacity]
    refine ⟨h, if_pos (h.capacity ▸ hcap)⟩
  have hlook : r.look all limit offset =
      match b.ahead.tokens[offset.toNat]?, all.failure? with
      | some t, _ => .ok (some t)
      | none, some f => .error f
      | none, none => .ok none := by
    rw [ReadPoint.look, if_neg (h.capacity ▸ hcap), h.getElem?]
  have hframe := pull_frame ((offset + 1).toNat - b.queue.length) b
  have hrun : Buffer.fill offset b = pull ((offset + 1).toNat - b.queue.length) b := if_neg hcap
  rw [← hrun] at hframe
  have hfill := b.fill_ahead h0
  cases hf : Buffer.fill offset b with
  | ok u b' =>
    rw [hf] at hfill hframe
    obtain ⟨hsame, hfilled⟩ := hfill
    refine ⟨h.of_consumes hsame hframe.1 hframe.2, ?_⟩
    have hget : b'.queue[offset.toNat]? = b.ahead.tokens[offset.toNat]? := by
      rw [queue_getElem? hfilled, hsame.tokens, List.nil_append]
    show _ = Except.ok b'.queue[offset.toNat]?
    rw [hlook, ← hget]
    cases hq : b'.queue[offset.toNat]? with
    | some t => rfl
    | none =>
      have hnone : all.failure? = none := by
        rw [← h.failure, ← hsame.failure]
        exact failure?_eq_none hfilled hq
      rw [hnone]
  | error f b' =>
    rw [hf] at hfill hframe
    obtain ⟨hsame, hunreadable⟩ := hfill
    refine ⟨h.of_consumes hsame hframe.1 hframe.2, ?_⟩
    obtain ⟨hfailure, hlength⟩ := hunreadable.resolve_right fun hu => hcap hu.1
    rw [hlook, List.getElem?_eq_none (by omega), ← h.failure, hfailure]
    rfl

/-- A step that looks answers as the look at the read point does. -/
theorem ask (h : Follows all limit b r) {offset : Int} (h0 : 0 ≤ offset)
    {answer : Option Token → Answer} {s : Step}
    (hs : b.step s = (do return answer (← peek offset) : Parser Answer) b) :
    answerOf (b.step s) = answerOf (r.ask all limit offset answer) ∧
      Follows all limit (stateOf (b.step s)) (stateOf (r.ask all limit offset answer)) := by
  obtain ⟨hstate, hlook⟩ := h.fill h0
  have hrun : b.step s = EStateM.bind (EStateM.bind (Buffer.fill offset) fun _ => buffered offset)
      (fun t => pure (answer t)) b := hs
  rw [hrun, ReadPoint.ask, hlook, EStateM.bind, EStateM.bind]
  cases hf : Buffer.fill offset b with
  | ok u b' =>
    rw [hf] at hstate
    simp only [buffered, if_pos h0]
    exact ⟨rfl, hstate⟩
  | error f b' =>
    rw [hf] at hstate
    exact ⟨rfl, hstate⟩

/-- Taking the first token of the queue moves the read point past it. -/
theorem shift (h : Follows all limit b r) {t : Token} {ts : List Token} (hq : b.queue = t :: ts) :
    Follows all limit
      { b with queue := ts, consumed := b.consumed + 1, lastPos := some t.pos } (r.pass t) where
  tokens := by
    have htokens : b.ahead.tokens = t :: Ahead.tokens
        (ahead { b with queue := ts, consumed := b.consumed + 1, lastPos := some t.pos }) := by
      simp only [ahead, hq]
      split
      · rfl
      · rfl
    have hfirst : b.ahead.tokens[0]? = all.tokens[r.consumed]? := h.getElem? 0
    rw [htokens, List.getElem?_cons_zero] at hfirst
    rw [ReadPoint.pass, List.take_add_one, ← hfirst, Option.toList_some, List.append_assoc,
      List.singleton_append, ← htokens]
    exact h.tokens
  failure := by
    rw [← h.failure]
    simp only [ahead]
    split
    · rfl
    · rfl
  capacity := h.capacity
  consumed := congrArg (· + 1) h.consumed
  lastPos := rfl

/-- A pop takes the token after the read point and moves past it. -/
theorem pop (h : Follows all limit b r) :
    answerOf (b.step .pop) = answerOf (r.step all limit .pop) ∧
      Follows all limit (stateOf (b.step .pop)) (stateOf (r.step all limit .pop)) := by
  obtain ⟨hstate, hlook⟩ := h.fill (Int.le_refl 0)
  have hrun : b.step .pop = EStateM.bind (EStateM.bind (Buffer.fill 0) fun _ => Buffer.shift)
      (fun t => pure (.token t)) b := rfl
  rw [hrun, ReadPoint.step, EStateM.bind, EStateM.bind]
  cases hf : Buffer.fill 0 b with
  | error f b' =>
    rw [hf] at hstate hlook
    rw [hlook]
    exact ⟨rfl, hstate⟩
  | ok u b' =>
    rw [hf] at hstate hlook
    cases hq : b'.queue with
    | nil =>
      have hnone : r.look all limit 0 = .ok none := by
        rw [hlook]
        show Except.ok b'.queue[0]? = _
        rw [hq, List.getElem?_nil]
      simp only [Buffer.shift, hq, hnone]
      exact ⟨rfl, hstate⟩
    | cons t ts =>
      have hsome : r.look all limit 0 = .ok (some t) := by
        rw [hlook]
        show Except.ok b'.queue[0]? = _
        rw [hq, List.getElem?_cons_zero]
      simp only [Buffer.shift, hq, hsome]
      exact ⟨rfl, hstate.shift hq⟩

/-- The end is reached where a look gives nothing. -/
theorem isEnd (h : Follows all limit b r) :
    answerOf (b.step .isEnd) = answerOf (r.step all limit .isEnd) ∧
      Follows all limit (stateOf (b.step .isEnd)) (stateOf (r.step all limit .isEnd)) := by
  refine h.ask (Int.le_refl 0) ?_
  have hrun : b.step .isEnd = EStateM.bind (EStateM.bind (Buffer.fill 0) fun _ =>
      EStateM.bind get fun b => pure b.queue.isEmpty) (fun e => pure (.flag e)) b := rfl
  have hrun' : (do return .flag (← peek 0).isNone : Parser Answer) b =
      EStateM.bind (EStateM.bind (Buffer.fill 0) fun _ => buffered 0)
        (fun t => pure (.flag t.isNone)) b := rfl
  rw [hrun, hrun', EStateM.bind, EStateM.bind, EStateM.bind, EStateM.bind]
  cases Buffer.fill 0 b with
  | error f b' => rfl
  | ok u b' =>
    show (EStateM.Result.ok (.flag b'.queue.isEmpty) b' : Outcome Buffer Answer) =
      .ok (.flag b'.queue[0]?.isNone) b'
    cases b'.queue with
    | nil => rfl
    | cons t ts => rfl

/-- Text appended after the end of input moves nothing. -/
theorem append (h : Follows all limit b r) (hex : b.exhausted = true) (text : String) :
    Follows all limit { b with cursor := b.cursor.append text } r where
  tokens := by
    have htokens := h.tokens
    rw [ahead, if_pos hex] at htokens
    rw [ahead, if_pos hex]
    exact htokens
  failure := by
    have hfailure := h.failure
    rw [ahead, if_pos hex] at hfailure
    rw [ahead, if_pos hex]
    exact hfailure
  capacity := h.capacity
  consumed := h.consumed
  lastPos := h.lastPos

/-- One step of a buffer does what the step does to its read point. -/
theorem step (h : Follows all limit b r) (s : Step) (hs : b.Fits s) :
    answerOf (b.step s) = answerOf (r.step all limit s) ∧
      Follows all limit (stateOf (b.step s)) (stateOf (r.step all limit s)) := by
  cases s with
  | peek offset => exact h.ask hs rfl
  | hasKind k offset =>
    refine h.ask hs ?_
    show EStateM.bind (EStateM.bind (peek offset) _) _ b = EStateM.bind (peek offset) _ b
    rw [EStateM.bind, EStateM.bind, EStateM.bind]
    cases peek offset b with
    | ok t b' => rfl
    | error f b' => rfl
  | hasName name offset =>
    refine h.ask hs ?_
    show EStateM.bind (EStateM.bind (peek offset) _) _ b = EStateM.bind (peek offset) _ b
    rw [EStateM.bind, EStateM.bind, EStateM.bind]
    cases peek offset b with
    | ok t b' => rfl
    | error f b' => rfl
  | pop => exact h.pop
  | isEnd => exact h.isEnd
  | append text => exact ⟨rfl, h.append hs text⟩

/-- Before the first step nothing has been read. -/
theorem start (c : Cursor) (capacity : Int) :
    Follows c.ahead capacity (ofCursor c capacity) .start where
  tokens := rfl
  failure := rfl
  capacity := rfl
  consumed := rfl
  lastPos := rfl

end Follows

/-- What follows a failure is not run. -/
theorem bind_error {α β : Type} {p : Parser α} {b b' : Buffer} {f : Failure}
    (h : p b = .error f b') (q : α → Parser β) : (p >>= q) b = .error f b' := by
  show EStateM.bind p q b = _
  rw [EStateM.bind, h]

/-- A step that looks beyond the capacity is refused, and the buffer stays as it is. -/
theorem step_of_capacity_le {b : Buffer} {s : Step} {offset : Int} (hs : s.offset? = some offset)
    (h : b.capacity ≤ offset) : b.step s = .error (.beyondCapacity offset b.capacity) b := by
  have hfill := fill_of_capacity_le h
  have hpeek : peek offset b = .error (.beyondCapacity offset b.capacity) b := bind_error hfill _
  cases s with
  | append text => cases hs
  | peek k =>
    cases hs
    exact bind_error hpeek _
  | hasKind _ k | hasName _ k =>
    cases hs
    exact bind_error (bind_error hpeek _) _
  | pop | isEnd =>
    cases hs
    exact bind_error (bind_error hfill _) _

/-! ## Runs on a source -/

/-- Whatever is asked of a buffer over a source, its answers are those of a place in the list of
the tokens of the source.  At all times the tokens popped, those in the queue and those still to
be scanned are all of them.  A look beyond the capacity leaves everything as it is. -/
theorem runSteps_readPoint (source filename : String) (convert : Converter) (capacity : Int)
    (steps : List Step)
    (hsteps : Allowed step Fits (ofCursor (.start source filename convert) capacity) steps) :
    let b := ofCursor (.start source filename convert) capacity
    let all := (Cursor.start source filename convert).ahead
    List.Forall₂ (fun r r' => r.1 = r'.1 ∧ Follows all capacity r.2 r'.2) (runSteps step b steps)
      (runSteps (ReadPoint.step all capacity) .start steps) ∧
    ∀ b' ∈ statesOf step b steps, (∃ r, Follows all capacity b' r) ∧
      ∀ s offset, s.offset? = some offset → capacity ≤ offset →
        b'.step s = .error (.beyondCapacity offset capacity) b' := by
  intro b all
  have hstart : Follows all capacity b .start := .start _ _
  have hstep : ∀ b r s, Follows all capacity b r → b.Fits s →
      answerOf (b.step s) = answerOf (r.step all capacity s) ∧
        Follows all capacity (stateOf (b.step s)) (stateOf (r.step all capacity s)) :=
    fun b r s h hs => h.step s hs
  refine ⟨runSteps_simulates hstep b .start steps hstart hsteps, fun b' hb' => ?_⟩
  obtain ⟨r, hr⟩ := forall_statesOf (fun b => ∃ r, Follows all capacity b r)
    (fun b s ⟨r, h⟩ hs => ⟨_, (hstep b r s h hs).2⟩) b steps ⟨_, hstart⟩ hsteps b' hb'
  refine ⟨⟨r, hr⟩, fun s offset hs hoffset => ?_⟩
  have hbeyond := step_of_capacity_le hs (hr.capacity ▸ hoffset)
  rwa [hr.capacity] at hbeyond

/-- Steps that meet the end of input behind a comment, and text that comes too late. -/
def lateSteps : List Step :=
  [.hasKind .identifier 0, .pop, .peek 1, .append " y", .isEnd, .peek 2, .pop, .hasName "y" 0]

theorem runSteps_readPoint_late :
    Allowed step Fits (ofCursor (.start "x // z\n" anonymous .integer) 2) lateSteps ∧
    let b := ofCursor (.start "x // z\n" anonymous .integer) 2
    let all := (Cursor.start "x // z\n" anonymous .integer).ahead
    List.Forall₂ (fun r r' => r.1 = r'.1 ∧ Follows all 2 r.2 r'.2) (runSteps step b lateSteps)
      (runSteps (ReadPoint.step all 2) .start lateSteps) ∧
    ∀ b' ∈ statesOf step b lateSteps, (∃ r, Follows all 2 b' r) ∧
      ∀ s offset, s.offset? = some offset → 2 ≤ offset →
        b'.step s = .error (.beyondCapacity offset 2) b' := by
  have hsteps :
      Allowed step Fits (ofCursor (.start "x // z\n" anonymous .integer) 2) lateSteps := by
    decide +kernel
  exact ⟨hsteps, runSteps_readPoint _ _ _ _ _ hsteps⟩

end Buffer

end ExprFront
