import ExprFront.Buffer
import ExprFront.Proofs.Lexemes

/-!
# What lies ahead

The grammar sees a source only through a buffer, and a buffer sees it only through a
cursor.  This module gives both of them one view, `ahead`: the tokens that are still to be
consumed, and the failure that follows the last of them, if scanning fails there.

* `Cursor.fetch_ahead` says what a fetch does to the view of a cursor, and `Buffer.pull_ahead`
  that filling a buffer does nothing to the view of the buffer.
* `Buffer.Consumes b ts b'` relates two states of a buffer between which exactly the tokens
  `ts` were consumed.
* `Buffer.peek_ahead` and `Buffer.pop_ahead` are all that the rules of the grammar need to
  know of a buffer.
* `tokenize_of_ahead` ties the view to the tokens of the whole source.
-/

namespace ExprFront

/-- Tokens still to come, and the failure after them, if there is one. -/
structure Ahead where
  tokens : List Token
  failure? : Option Failure

/-- The tokens that matter to the grammar: neither skipped ones nor the end of input. -/
def significant (ts : List Token) : List Token := ts.filter fun t => !t.isSkip && !t.isEnd

/-! ## Cursors -/

namespace Cursor

/-- What the cursor will give, skipped tokens left out. -/
def ahead (c : Cursor) : Ahead :=
  match _h : c.next with
  | .error e => ⟨[], some e⟩
  | .ok (t, c') =>
    if _he : t.isEnd then ⟨[], none⟩
    else if t.isSkip then ahead c' else ⟨t :: (ahead c').tokens, (ahead c').failure?⟩
termination_by c.rest.length
decreasing_by all_goals exact next_rest_length_lt _h (by simpa using _he)

theorem ahead_of_error {c : Cursor} {e : Failure} (h : c.next = .error e) :
    c.ahead = ⟨[], some e⟩ := by
  rw [ahead]
  split
  · next e' h' => rw [h] at h'; cases h'; rfl
  · next h' => rw [h] at h'; cases h'

theorem ahead_of_ok {c c' : Cursor} {t : Token} (h : c.next = .ok (t, c')) :
    c.ahead = if t.isEnd then ⟨[], none⟩ else
      if t.isSkip then c'.ahead else ⟨t :: c'.ahead.tokens, c'.ahead.failure?⟩ := by
  rw [ahead]
  split
  · next h' => rw [h] at h'; cases h'
  · next t' c'' h' =>
    rw [h] at h'
    cases h'
    split <;> rfl

theorem filename_next {c c' : Cursor} {t : Token} (h : c.next = .ok (t, c')) :
    c'.filename = c.filename := by
  rcases next_cases h with ⟨-, rfl, -⟩ | ⟨_, _, _, _, _, -, -, -, -, -, rfl⟩
  · rfl
  · rfl

theorem convert_next {c c' : Cursor} {t : Token} (h : c.next = .ok (t, c')) :
    c'.convert = c.convert := by
  rcases next_cases h with ⟨-, rfl, -⟩ | ⟨_, _, _, _, _, -, -, -, -, -, rfl⟩
  · rfl
  · rfl

theorem convert_of_next {c c' : Cursor} {t : Token} {v : Value} (h : c.next = .ok (t, c'))
    (hv : t.lexeme = .number v) :
    ∃ text, IsNumeral text ∧ c.convert (String.ofList text) = .ok v := by
  rcases next_cases h with ⟨rfl, -, -⟩ | ⟨_, text, _, shape, lexeme, -, -, ht, hl, rfl, -⟩
  · cases hv
  · change lexeme = .number v at hv
    subst hv
    cases shape with
    | numeral =>
      refine ⟨text, Fragment.isNumeral_of_take? ht, ?_⟩
      rw [Shape.lexeme] at hl
      cases hc : c.convert (String.ofList text) with
      | error e => rw [hc] at hl; cases hl
      | ok w => rw [hc] at hl; cases hl; rfl
    | lineBreak | comment | word | particle => cases hl

/-- A fetch takes the first token of what lies ahead; at the end it changes nothing. -/
theorem fetch_ahead (c : Cursor) :
    match c.fetch with
    | .error e c' => c.ahead = ⟨[], some e⟩ ∧ c'.ahead = c.ahead ∧ c'.filename = c.filename
    | .ok t c' => c'.filename = c.filename ∧
        if t.isEnd then c.ahead = ⟨[], none⟩ else
          c.ahead = ⟨t :: c'.ahead.tokens, c'.ahead.failure?⟩ := by
  fun_induction fetch c with
  | case1 c e h => exact ⟨ahead_of_error h, rfl, rfl⟩
  | case2 c t c' h hs ih =>
    have hskip : c.ahead = c'.ahead := by
      rw [ahead_of_ok h, if_neg (by simp [isEnd_of_isSkip hs]), if_pos hs]
    rw [hskip]
    split
    · next e c'' hf =>
      rw [hf] at ih
      exact ⟨ih.1, ih.2.1, ih.2.2.trans (filename_next h)⟩
    · next u c'' hf =>
      rw [hf] at ih
      exact ⟨ih.1.trans (filename_next h), ih.2⟩
  | case3 c t c' h hs =>
    refine ⟨filename_next h, ?_⟩
    rw [ahead_of_ok h, if_neg hs]
    split
    · rfl
    · rfl

/-- There is at most one token for each character ahead. -/
theorem length_ahead_le (c : Cursor) : c.ahead.tokens.length ≤ c.rest.length := by
  fun_induction ahead c with
  | case1 c e h => exact Nat.zero_le _
  | case2 c t c' h he => exact Nat.zero_le _
  | case3 c t c' h he hs ih =>
    have := next_rest_length_lt h (by simpa using he)
    omega
  | case4 c t c' h he hs ih =>
    have := next_rest_length_lt h (by simpa using he)
    simp only [List.length_cons]
    omega

/-- A run to the end gives the tokens ahead, whether or not it lists skipped ones too. -/
theorem tokens_of_ahead (c : Cursor) (includeSkips : Bool) :
    match c.tokens includeSkips with
    | .error e _ => c.ahead.failure? = some e
    | .ok ts _ => c.ahead.failure? = none ∧ significant ts = c.ahead.tokens := by
  fun_induction tokens includeSkips c with
  | case1 c e h => simp [ahead_of_error h]
  | case2 c t c' h he => simp [ahead_of_ok h, he, significant]
  | case3 c t c' h he e c'' ht ih =>
    rw [ht] at ih
    rw [ahead_of_ok h, if_neg he]
    by_cases hs : t.isSkip
    · simpa [hs] using ih
    · simpa [hs] using ih
  | case4 c t c' h he ts c'' ht ih =>
    rw [ht] at ih
    rw [ahead_of_ok h, if_neg he]
    by_cases hs : t.isSkip
    · cases includeSkips with
      | false => simpa [hs] using ih
      | true => simpa [hs, significant] using ih
    · simpa [hs, he, significant] using ih

/-- A number ahead is what the converter gives for some numeral. -/
theorem convert_of_mem_ahead (c : Cursor) :
    ∀ t ∈ c.ahead.tokens, ∀ v, t.lexeme = .number v →
      ∃ text, IsNumeral text ∧ c.convert (String.ofList text) = .ok v := by
  fun_induction ahead c with
  | case1 c e h => simp
  | case2 c t c' h he => simp
  | case3 c t c' h he hs ih =>
    rw [← convert_next h]
    exact ih
  | case4 c t c' h he hs ih =>
    rw [← convert_next h]
    intro u hu v hv
    rcases List.mem_cons.1 hu with rfl | hu
    · rw [convert_next h]
      exact convert_of_next h hv
    · exact ih u hu v hv

/-- How scanning can fail: with a verdict that names the source, or because the converter
breaks down on a numeral. -/
def Refuses (c : Cursor) (f : Failure) : Prop :=
  (∃ e : LexError, f = .lexical e ∧ e.filename = c.filename) ∨
    ∃ text e, IsNumeral text ∧ c.convert (String.ofList text) = .error e ∧
      e.kind = .runtime ∧ f = .breakdown e

theorem refuses_of_next {c : Cursor} {f : Failure} (h : c.next = .error f) : c.Refuses f := by
  obtain ⟨gap, x, bad, -, -, -, ⟨-, rfl⟩ | ⟨text, e, ht, he, rfl⟩⟩ := next_error h
  · exact .inl ⟨_, rfl, rfl⟩
  · cases hk : e.kind with
    | runtime =>
      refine .inr ⟨text, e, Fragment.isNumeral_of_take? ht, he, hk, ?_⟩
      rw [numeralFailure, hk]
    | overflow | value | invalidOperation | zeroDivision | type =>
      refine .inl ?_
      rw [numeralFailure, hk]
      exact ⟨_, rfl, rfl⟩

/-- The failure ahead, if there is one, is a failure of scanning. -/
theorem refuses_of_ahead (c : Cursor) : ∀ f, c.ahead.failure? = some f → c.Refuses f := by
  fun_induction ahead c with
  | case1 c e h =>
    intro f hf
    cases hf
    exact refuses_of_next h
  | case2 c t c' h he => simp
  | case3 c t c' h he hs ih =>
    intro f hf
    have href := ih f hf
    rwa [Refuses, filename_next h, convert_next h] at href
  | case4 c t c' h he hs ih =>
    intro f hf
    have href := ih f hf
    rwa [Refuses, filename_next h, convert_next h] at href

end Cursor

/-- The tokens of a source, when scanning it does not fail. -/
theorem tokenize_of_ahead {source filename : String} {convert : Converter}
    (h : (Cursor.start source filename convert).ahead.failure? = none) (includeSkips : Bool) :
    ∃ ts, tokenize source filename convert includeSkips = .ok ts ∧
      significant ts = (Cursor.start source filename convert).ahead.tokens := by
  have hrun := (Cursor.start source filename convert).tokens_of_ahead includeSkips
  unfold tokenize
  split
  · next e c he =>
    rw [he, h] at hrun
    cases hrun
  · next ts c he =>
    rw [he] at hrun
    exact ⟨ts, rfl, hrun.2⟩

/-- The failure of scanning a source is the one that lies ahead. -/
theorem tokenize_of_failure {source filename : String} {convert : Converter} {f : Failure}
    (h : (Cursor.start source filename convert).ahead.failure? = some f) (includeSkips : Bool) :
    tokenize source filename convert includeSkips = .error f := by
  have hrun := (Cursor.start source filename convert).tokens_of_ahead includeSkips
  unfold tokenize
  split
  · next e c he =>
    rw [he, h] at hrun
    cases hrun
    rfl
  · next ts c he =>
    rw [he, h] at hrun
    cases hrun.1

/-- A source whose tokens are known is scanned without failure. -/
theorem ahead_of_tokenize {source filename : String} {convert : Converter} {includeSkips : Bool}
    {ts : List Token} (h : tokenize source filename convert includeSkips = .ok ts) :
    (Cursor.start source filename convert).ahead.failure? = none ∧
      (Cursor.start source filename convert).ahead.tokens = significant ts := by
  have hrun := (Cursor.start source filename convert).tokens_of_ahead includeSkips
  unfold tokenize at h
  split at h
  · cases h
  · next us c he =>
    cases h
    rw [he] at hrun
    exact ⟨hrun.1, hrun.2.symm⟩

/-! ## Buffers -/

namespace Buffer

/-- What the buffer will give: what is buffered, then what the cursor gives, unless the
buffer has met the end of input. -/
def ahead (b : Buffer) : Ahead :=
  if b.exhausted then ⟨b.queue, none⟩
  else ⟨b.queue ++ b.cursor.ahead.tokens, b.cursor.ahead.failure?⟩

/-- There are no more tokens ahead than the weight says. -/
theorem length_ahead_le_weight (b : Buffer) : b.ahead.tokens.length ≤ b.weight := by
  have := b.cursor.length_ahead_le
  unfold ahead weight
  split
  · simp
  · simp only [List.length_append]
    omega

/-- The failure ahead, if there is one, is a failure of scanning. -/
theorem refuses_of_ahead {b : Buffer} {f : Failure} (h : b.ahead.failure? = some f) :
    b.cursor.Refuses f := by
  rw [ahead] at h
  split at h
  · cases h
  · exact b.cursor.refuses_of_ahead f h

/-- Exactly the tokens `ts` were consumed between the two states. -/
structure Consumes (b : Buffer) (ts : List Token) (b' : Buffer) : Prop where
  tokens : b.ahead.tokens = ts ++ b'.ahead.tokens
  failure : b'.ahead.failure? = b.ahead.failure?
  capacity : b'.capacity = b.capacity
  filename : b'.cursor.filename = b.cursor.filename

theorem Consumes.refl (b : Buffer) : Consumes b [] b := ⟨rfl, rfl, rfl, rfl⟩

/-- What is left is what comes behind the tokens consumed. -/
theorem Consumes.tokens_eq {b b' : Buffer} {ts rest : List Token} (h : Consumes b ts b')
    (hb : b.ahead.tokens = ts ++ rest) : b'.ahead.tokens = rest :=
  List.append_cancel_left (h.tokens.symm.trans hb)

theorem Consumes.trans {b b' b'' : Buffer} {ts us : List Token} (h : Consumes b ts b')
    (h' : Consumes b' us b'') : Consumes b (ts ++ us) b'' where
  tokens := by rw [h.tokens, h'.tokens, List.append_assoc]
  failure := h'.failure.trans h.failure
  capacity := h'.capacity.trans h.capacity
  filename := h'.filename.trans h.filename

theorem Consumes.length_eq {b b' : Buffer} {ts : List Token} (h : Consumes b ts b') :
    ts.length + b'.ahead.tokens.length = b.ahead.tokens.length := by
  rw [h.tokens, List.length_append]

/-- Nothing is consumed when only the view is kept. -/
theorem Consumes.of_ahead_eq {b b' : Buffer} (h : b'.ahead = b.ahead)
    (hc : b'.capacity = b.capacity) (hf : b'.cursor.filename = b.cursor.filename) :
    Consumes b [] b' :=
  ⟨by rw [h]; rfl, by rw [h], hc, hf⟩

/-- Fetching consumes nothing.  It goes on until enough is buffered, or the input ends, or
scanning fails. -/
theorem pull_ahead (n : Nat) (b : Buffer) :
    match pull n b with
    | .ok _ b' => Consumes b [] b' ∧
        (b.queue.length + n ≤ b'.queue.length ∨ b'.exhausted = true)
    | .error f b' => Consumes b [] b' ∧ b.ahead.failure? = some f ∧
        b.ahead.tokens.length < b.queue.length + n := by
  induction n generalizing b with
  | zero => exact ⟨.refl b, .inl (Nat.le_refl _)⟩
  | succ n ih =>
    rw [pull]
    by_cases hex : b.exhausted
    · rw [if_pos hex]
      exact ⟨.refl b, .inr hex⟩
    · rw [if_neg hex]
      have hfetch := b.cursor.fetch_ahead
      cases hf : b.cursor.fetch with
      | error e c =>
        rw [hf] at hfetch
        obtain ⟨hahead, hsame, hfile⟩ := hfetch
        have hb : b.ahead = ⟨b.queue, some e⟩ := by simp [ahead, hex, hahead]
        refine ⟨.of_ahead_eq ?_ rfl hfile, ?_, ?_⟩
        · simp [ahead, hex, hsame]
        · rw [hb]
        · simp only [hb]
          omega
      | ok t c =>
        rw [hf] at hfetch
        obtain ⟨hfile, hahead⟩ := hfetch
        by_cases hend : t.isEnd
        · rw [if_pos hend] at hahead
          simp only [if_pos hend]
          refine ⟨.of_ahead_eq ?_ rfl hfile, .inr trivial⟩
          simp [ahead, hex, hahead]
        · rw [if_neg hend] at hahead
          simp only [if_neg hend]
          have hstep : Consumes b [] { b with cursor := c, queue := b.queue ++ [t] } := by
            refine .of_ahead_eq ?_ rfl hfile
            simp [ahead, hex, hahead]
          have hrec := ih { b with cursor := c, queue := b.queue ++ [t] }
          split
          · next b' hp =>
            rw [hp] at hrec
            refine ⟨hstep.trans hrec.1, hrec.2.imp_left ?_⟩
            intro hle
            simp only [List.length_append, List.length_cons, List.length_nil] at hle
            omega
          · next f b' hp =>
            rw [hp] at hrec
            refine ⟨hstep.trans hrec.1, hstep.failure ▸ hrec.2.1, ?_⟩
            have hlt := hrec.2.2
            rw [← hstep.length_eq]
            simp only [List.length_append, List.length_cons, List.length_nil] at hlt ⊢
            omega

/-- A look at `offset` fails with `f`: scanning fails before the token there, or the buffer
does not reach so far. -/
def Unreadable (b : Buffer) (offset : Int) (f : Failure) : Prop :=
  (b.ahead.failure? = some f ∧ b.ahead.tokens.length ≤ offset) ∨
    (b.capacity ≤ offset ∧ f = .beyondCapacity offset b.capacity)

theorem length_queue_le (b : Buffer) : b.queue.length ≤ b.ahead.tokens.length := by
  unfold ahead
  split
  · exact Nat.le_refl _
  · simp

/-- Filling consumes nothing. -/
theorem fill_ahead (b : Buffer) {offset : Int} (h0 : 0 ≤ offset) :
    match fill offset b with
    | .ok _ b' => Consumes b [] b' ∧ (offset.toNat < b'.queue.length ∨ b'.exhausted = true)
    | .error f b' => Consumes b [] b' ∧ Unreadable b offset f := by
  unfold fill
  by_cases hcap : b.capacity ≤ offset
  · rw [if_pos hcap]
    exact ⟨.refl b, .inr ⟨hcap, rfl⟩⟩
  · rw [if_neg hcap]
    have hpull := pull_ahead ((offset + 1).toNat - b.queue.length) b
    split
    · next b' hp =>
      rw [hp] at hpull
      exact ⟨hpull.1, hpull.2.imp_left (by omega)⟩
    · next f b' hp =>
      rw [hp] at hpull
      have := b.length_queue_le
      exact ⟨hpull.1, .inl ⟨hpull.2.1, by omega⟩⟩

/-- A filled buffer holds the token ahead at the offset, if there is one. -/
theorem queue_getElem? {b : Buffer} {k : Nat} (h : k < b.queue.length ∨ b.exhausted = true) :
    b.queue[k]? = b.ahead.tokens[k]? := by
  unfold ahead
  split
  · rfl
  · next hex => exact (List.getElem?_append_left (h.resolve_right hex)).symm

/-- Nothing lies ahead of a filled buffer that has no token at the offset, beyond those that
it holds; in particular no failure does. -/
theorem failure?_eq_none {b : Buffer} {k : Nat} (h : k < b.queue.length ∨ b.exhausted = true)
    (hk : b.queue[k]? = none) : b.ahead.failure? = none := by
  have hex : b.exhausted = true := h.resolve_left (Nat.not_lt.2 (List.getElem?_eq_none_iff.1 hk))
  rw [ahead, if_pos hex]

/-- A look gives the token ahead at the offset and consumes nothing.  It gives none only where
the input ends without a failure. -/
theorem peek_ahead (b : Buffer) {offset : Int} (h0 : 0 ≤ offset) :
    match peek offset b with
    | .ok r b' => Consumes b [] b' ∧ r = b.ahead.tokens[offset.toNat]? ∧
        (r = none → b.ahead.failure? = none)
    | .error f b' => Consumes b [] b' ∧ Unreadable b offset f := by
  have hfill := b.fill_ahead h0
  have hrun : peek offset b = EStateM.bind (fill offset) (fun _ => buffered offset) b := rfl
  rw [hrun, EStateM.bind]
  cases hf : fill offset b with
  | error f b' =>
    rw [hf] at hfill
    exact hfill
  | ok u b' =>
    rw [hf] at hfill
    simp only [buffered, if_pos h0]
    refine ⟨hfill.1, ?_, fun hnone => ?_⟩
    · rw [queue_getElem? hfill.2, hfill.1.tokens, List.nil_append]
    · rw [← hfill.1.failure]
      exact failure?_eq_none hfill.2 hnone

/-- Popping consumes the first token ahead, if there is one, and else nothing lies ahead. -/
theorem pop_ahead (b : Buffer) :
    match pop b with
    | .ok (some t) b' => Consumes b [t] b'
    | .ok none b' => Consumes b [] b' ∧ b.ahead.tokens = [] ∧ b.ahead.failure? = none
    | .error f b' => Consumes b [] b' ∧ Unreadable b 0 f := by
  have hfill := b.fill_ahead (Int.le_refl 0)
  have hrun : pop b = EStateM.bind (fill 0) (fun _ => shift) b := rfl
  rw [hrun, EStateM.bind]
  cases hf : fill 0 b with
  | error f b' =>
    rw [hf] at hfill
    exact hfill
  | ok u b' =>
    rw [hf] at hfill
    obtain ⟨hsame, hfilled⟩ := hfill
    simp only [shift]
    cases hq : b'.queue with
    | nil =>
      have hex : b'.exhausted = true := by
        rw [hq] at hfilled
        exact hfilled.resolve_left (by simp)
      refine ⟨hsame, ?_, ?_⟩
      · rw [hsame.tokens, ahead, if_pos hex, hq]
        rfl
      · rw [← hsame.failure, ahead, if_pos hex]
    | cons t ts =>
      refine hsame.trans ⟨?_, ?_, rfl, rfl⟩
      · simp only [ahead, hq]
        split
        · rfl
        · rfl
      · simp only [ahead]
        split
        · rfl
        · rfl

/-- The end is reached exactly when nothing lies ahead, not even a failure. -/
theorem isEnd_ahead (b : Buffer) :
    match isEnd b with
    | .ok true b' => Consumes b [] b' ∧ b.ahead = ⟨[], none⟩
    | .ok false b' => Consumes b [] b' ∧ b.ahead.tokens ≠ []
    | .error f b' => Consumes b [] b' ∧ Unreadable b 0 f := by
  have hfill := b.fill_ahead (Int.le_refl 0)
  have hrun : isEnd b =
      EStateM.bind (fill 0) (fun _ => EStateM.bind get fun b => pure b.queue.isEmpty) b := rfl
  rw [hrun, EStateM.bind]
  cases hf : fill 0 b with
  | error f b' =>
    rw [hf] at hfill
    exact hfill
  | ok u b' =>
    rw [hf] at hfill
    obtain ⟨hsame, hfilled⟩ := hfill
    show match (EStateM.Result.ok b'.queue.isEmpty b' : Outcome Buffer Bool) with
      | .ok true b' => Consumes b [] b' ∧ b.ahead = ⟨[], none⟩
      | .ok false b' => Consumes b [] b' ∧ b.ahead.tokens ≠ []
      | .error f b' => Consumes b [] b' ∧ Unreadable b 0 f
    cases hq : b'.queue with
    | nil =>
      have hex : b'.exhausted = true := by
        rw [hq] at hfilled
        exact hfilled.resolve_left (by simp)
      have hempty : b'.ahead = ⟨[], none⟩ := by rw [ahead, if_pos hex, hq]
      refine ⟨hsame, ?_⟩
      have htokens := hsame.tokens
      have hfailure := hsame.failure
      rw [hempty] at htokens hfailure
      cases hb : b.ahead with
      | mk ts f =>
        rw [hb] at htokens hfailure
        cases htokens
        cases hfailure
        rfl
    | cons t ts =>
      refine ⟨hsame, ?_⟩
      have hlen := b'.length_queue_le
      rw [hsame.tokens, List.nil_append]
      intro hnil
      rw [hnil, hq] at hlen
      simp at hlen

end Buffer

end ExprFront
