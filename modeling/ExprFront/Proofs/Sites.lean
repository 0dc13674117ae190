import ExprFront.Proofs.Coordinates
import ExprFront.Proofs.Reach

/-!
# Where a buffer stands in its source

A buffer in use is a place in its source, and so is its cursor, but they are not the same place:
the cursor is ahead by the tokens in the queue.  This module ties both to the source.

* `Cursor.Reached` says of a cursor that it has come from another one by scanning, and
  `Cursor.Behind` that it stands right behind the text of a token.
* `Sited` is the invariant of a buffer.  The tokens that were consumed, followed by those ahead, are
  the tokens of the source.  The cursor is right behind the last token of the queue, unless that is
  a name or a number, and at the end of input once that end has been met.

The exception is there because the grammar looks at a second token behind names and numbers only
(`Grammar.InSight`).  If such a look finds no token, the first one is alone in the queue, and the
cursor has passed what is skipped behind it.

A look and taking a token keep the invariant (`Sited.fill`, `Sited.shift`).  What it is for are
`Sited.endsAt` and `Sited.tokenEndsAt`: which place in the source the cursor marks.
-/

namespace ExprFront

/-! ## Where the cursor stands -/

/-- The token stands in the source, and its text ends at `pos`. -/
def Token.EndsAt (source : List Char) (t : Token) (pos : Position) : Prop :=
  ∃ before after, source = before ++ (t.text.toList ++ after) ∧ t.pos = coordinate before ∧
    pos = coordinate (before ++ t.text.toList)

namespace Cursor

/-- The end of input, as the cursor gives it. -/
def endToken (c : Cursor) : Token := ⟨.endOfInput, c.pos, ""⟩

/-- The cursor stands right behind the text of the token. -/
def Behind (c : Cursor) (t : Token) : Prop :=
  ∃ before, c.taken.reverse = before ++ t.text.toList ∧ t.pos = coordinate before

/-- The end of input that a run from the cursor finds is at `pos`. -/
def EndsAt (c : Cursor) (pos : Position) : Prop :=
  ∃ us t c', c.tokens false = .ok (us ++ [t]) c' ∧ t.isEnd = true ∧ pos = t.pos

/-- A token that is not skipped and not the end of input comes first in a run to the end. -/
theorem tokens_of_next {c c' : Cursor} {t : Token} (h : c.next = .ok (t, c'))
    (hend : t.isEnd = false) {ts : List Token} {c'' : Cursor} (hts : c'.tokens false = .ok ts c'') :
    c.tokens false = .ok (if t.isSkip then ts else t :: ts) c'' := by
  unfold tokens
  split
  · next e hnext =>
    rw [h] at hnext
    cases hnext
  · next u d hnext =>
    rw [h] at hnext
    cases hnext
    rw [dif_neg (by simp [hend]), hts]
    simp

theorem tokens_of_end {c c' : Cursor} {t : Token} (h : c.next = .ok (t, c'))
    (hend : t.isEnd = true) : c.tokens false = .ok [t] c' := by
  unfold tokens
  split
  · next e hnext =>
    rw [h] at hnext
    cases hnext
  · next u d hnext =>
    rw [h] at hnext
    cases hnext
    rw [dif_pos hend]

/-- The cursor `c` has come from `c₀` by scanning. -/
structure Reached (c₀ c : Cursor) : Prop where
  placed : c.Placed
  source : c.source = c₀.source
  /-- Tokens that were passed come first in a run from `c₀` to the end. -/
  run : ∃ us, ∀ ts c', c.tokens false = .ok ts c' → c₀.tokens false = .ok (us ++ ts) c'

theorem Reached.next {c₀ c c' : Cursor} {t : Token} (h : Reached c₀ c)
    (hnext : c.next = .ok (t, c')) : Reached c₀ c' := by
  refine ⟨h.placed.next hnext, (source_next hnext).trans h.source, ?_⟩
  cases hend : t.isEnd with
  | true =>
    obtain ⟨-, rfl, -⟩ := next_end hnext hend
    exact h.run
  | false =>
    obtain ⟨us, hus⟩ := h.run
    refine ⟨us ++ if t.isSkip then [] else [t], fun ts c'' hts => ?_⟩
    rw [hus _ _ (tokens_of_next hnext hend hts)]
    split <;> simp

/-- A token with text is behind the cursor once it is scanned. -/
theorem Placed.behind {c c' : Cursor} {t : Token} (hc : c.Placed) (h : c.next = .ok (t, c'))
    (hend : t.isEnd = false) : c'.Behind t := by
  rcases next_cases h with ⟨rfl, -, -⟩ | ⟨gap, text, after, shape, lexeme, -, hgap, -, -, rfl, rfl⟩
  · cases hend
  · refine ⟨c.taken.reverse ++ gap, ?_, hc.advance_gap hgap⟩
    simp

/-- Fetching keeps to the source.  It ends right behind a token, or at the end of input, or
before a fragment that cannot be scanned. -/
theorem Reached.fetch {c₀ c : Cursor} (h : Reached c₀ c) :
    match c.fetch with
    | .error _ c' => Reached c₀ c'
    | .ok t c' => Reached c₀ c' ∧
        if t.isEnd then c'.tokens false = .ok [c'.endToken] c' else c'.Behind t := by
  fun_induction Cursor.fetch c with
  | case1 c e hnext => exact h
  | case2 c t c' hnext hskip ih => exact ih (h.next hnext)
  | case3 c t c' hnext hskip =>
    refine ⟨h.next hnext, ?_⟩
    split
    · next hend =>
      obtain ⟨rfl, rfl, -⟩ := next_end hnext hend
      exact tokens_of_end hnext rfl
    · next hend => exact h.placed.behind hnext (by simpa using hend)

end Cursor

/-! ## Buffers in a source -/

/-- The buffer `b` has come from the cursor `c₀` by consuming the tokens `past`, and its own
cursor stands no further than its last look needed. -/
structure Sited (c₀ : Cursor) (past : List Token) (b : Buffer) : Prop where
  tidy : b.Tidy
  tokens : c₀.ahead.tokens = past ++ b.ahead.tokens
  failure : b.ahead.failure? = c₀.ahead.failure?
  consumed : b.consumed = past.length
  lastPos : b.lastPos = past.getLast?.map Token.pos
  reached : Cursor.Reached c₀ b.cursor
  /-- Nothing was looked at behind a token that is no name and no number. -/
  behind : ∀ t, b.queue.getLast? = some t → ¬ t.Leads → b.cursor.Behind t
  /-- At the end of input the cursor stands where that end is. -/
  finish : b.exhausted = true → b.cursor.tokens false = .ok [b.cursor.endToken] b.cursor

namespace Sited

open Buffer Grammar

variable {c₀ : Cursor} {past : List Token} {b : Buffer}

theorem start (source filename : String) (convert : Converter) {capacity : Int}
    (h : minLookahead ≤ capacity) :
    Sited (.start source filename convert) []
      (ofCursor (.start source filename convert) capacity) where
  tidy := Slim.tidy ⟨h, Nat.zero_le 1⟩
  tokens := rfl
  failure := rfl
  consumed := rfl
  lastPos := rfl
  reached := ⟨Cursor.placed_start source filename convert, rfl, [], fun _ _ h => h⟩
  behind t ht := by cases ht
  finish := nofun

/-- One token is fetched behind names and numbers only. -/
theorem pull_one (h : Sited c₀ past b) (hleads : ∀ t, b.queue.getLast? = some t → t.Leads) :
    Cursor.Reached c₀ (stateOf (pull 1 b)).cursor ∧
      (∀ t, (stateOf (pull 1 b)).queue.getLast? = some t → ¬ t.Leads →
        (stateOf (pull 1 b)).cursor.Behind t) ∧
      ((stateOf (pull 1 b)).exhausted = true →
        (stateOf (pull 1 b)).cursor.tokens false =
          .ok [(stateOf (pull 1 b)).cursor.endToken] (stateOf (pull 1 b)).cursor) := by
  have hfetch := h.reached.fetch
  rw [pull]
  by_cases hex : b.exhausted = true
  · rw [if_pos hex]
    exact ⟨h.reached, h.behind, h.finish⟩
  rw [if_neg hex]
  cases hf : b.cursor.fetch with
  | error e c =>
    rw [hf] at hfetch
    exact ⟨hfetch, fun t ht hnot => absurd (hleads t ht) hnot, fun hx => absurd hx hex⟩
  | ok t c =>
    rw [hf] at hfetch
    obtain ⟨hreached, hplace⟩ := hfetch
    by_cases hend : t.isEnd = true
    · rw [if_pos hend] at hplace
      simp only [if_pos hend]
      exact ⟨hreached, fun u hu hnot => absurd (hleads u hu) hnot, fun _ => hplace⟩
    · rw [if_neg hend] at hplace
      simp only [if_neg hend]
      refine ⟨hreached, fun u hu _ => ?_, fun hx => absurd hx hex⟩
      have hlast : (b.queue ++ [t]).getLast? = some u := hu
      rw [List.getLast?_concat] at hlast
      cases hlast
      exact hplace

/-- A look that needs a token fetches it behind a name or a number, or where none is held. -/
theorem fetches (h : Sited c₀ past b) {offset : Int} (hoffset : InSight b offset) :
    (offset + 1).toNat - b.queue.length = 0 ∨ (offset + 1).toNat - b.queue.length = 1 ∧
      ∀ t, b.queue.getLast? = some t → t.Leads := by
  have hshort := h.tidy.short
  rcases hoffset with rfl | ⟨rfl, t, ht, hleads⟩
  · cases hq : b.queue with
    | nil => exact .inr ⟨rfl, fun t ht => by cases ht⟩
    | cons t us =>
      rw [List.length_cons]
      exact .inl (by omega)
  · match hq : b.queue with
    | [] =>
      rw [hq] at ht
      cases ht
    | [u] =>
      rw [hq] at ht
      cases ht
      refine .inr ⟨rfl, fun v hv => ?_⟩
      cases hv
      exact hleads
    | u :: v :: us =>
      rw [List.length_cons, List.length_cons]
      exact .inl (by omega)

/-- A look keeps the buffer where it is. -/
theorem fill (h : Sited c₀ past b) {offset : Int} (hoffset : InSight b offset) :
    Sited c₀ past (stateOf (Buffer.fill offset b)) := by
  have hcap : ¬ b.capacity ≤ offset := Int.not_le.2 (hoffset.lt h.tidy.reach)
  have hrun : Buffer.fill offset b = pull ((offset + 1).toNat - b.queue.length) b := if_neg hcap
  have htidy := tidy_pull h.tidy hoffset (Nat.le_refl _)
  rw [hrun]
  rcases h.fetches hoffset with hn | ⟨hn, hleads⟩
  · rw [hn]
    exact h
  · rw [hn] at htidy ⊢
    obtain ⟨hreached, hbehind, hfinish⟩ := h.pull_one hleads
    obtain ⟨hconsumed, hlast⟩ := pull_frame 1 b
    have hsame : b.Consumes [] (stateOf (pull 1 b)) := by
      have hahead := pull_ahead 1 b
      cases hp : pull 1 b with
      | ok u b' =>
        rw [hp] at hahead
        exact hahead.1
      | error f b' =>
        rw [hp] at hahead
        exact hahead.1
    exact {
      tidy := htidy
      tokens := by rw [h.tokens, hsame.tokens, List.nil_append]
      failure := hsame.failure.trans h.failure
      consumed := hconsumed.trans h.consumed
      lastPos := hlast.trans h.lastPos
      reached := hreached
      behind := hbehind
      finish := hfinish }

/-- Taking the first token adds it to the tokens that are past. -/
theorem shift (h : Sited c₀ past b) {t : Token} {ts : List Token} (hq : b.queue = t :: ts) :
    Sited c₀ (past ++ [t])
      { b with queue := ts, consumed := b.consumed + 1, lastPos := some t.pos } where
  tidy := by
    have hshort := h.tidy.short
    rw [hq, List.length_cons] at hshort
    exact Slim.tidy ⟨h.tidy.reach, Nat.le_of_succ_le_succ hshort⟩
  tokens := by
    have htokens := h.tokens
    simp only [ahead, hq] at htokens ⊢
    split at htokens
    · next hex => simpa [hex] using htokens
    · next hex => simpa [hex] using htokens
  failure := by
    have hfailure := h.failure
    simp only [ahead] at hfailure ⊢
    split at hfailure
    · next hex => simpa [hex] using hfailure
    · next hex => simpa [hex] using hfailure
  consumed := by simp [h.consumed]
  lastPos := by simp
  reached := h.reached
  behind u hu := by
    refine h.behind u ?_
    rw [hq]
    cases ts with
    | nil => cases hu
    | cons v vs => exact hu
  finish := h.finish

/-- A buffer that has met the end of input has its cursor there. -/
theorem endsAt (h : Sited c₀ past b) (hex : b.exhausted = true) : c₀.EndsAt b.cursor.pos := by
  obtain ⟨us, hus⟩ := h.reached.run
  exact ⟨us, b.cursor.endToken, b.cursor, hus _ _ (h.finish hex), rfl, rfl⟩

/-- A token behind which nothing was looked at ends where the cursor is. -/
theorem tokenEndsAt (h : Sited c₀ past b) {t : Token} (ht : b.queue.head? = some t)
    (hleads : ¬ t.Leads) : t.EndsAt c₀.source b.cursor.pos := by
  have hshort := (h.tidy.slim_of_head fun u hu => by
    cases ht.symm.trans hu
    exact hleads).short
  obtain ⟨us, hq⟩ := List.head?_eq_some_iff.1 ht
  rw [hq, List.length_cons] at hshort
  obtain rfl : us = [] := List.length_eq_zero_iff.1 (by omega)
  obtain ⟨before, htaken, hpos⟩ := h.behind t (by rw [hq]; rfl) hleads
  refine ⟨before, b.cursor.rest, ?_, hpos, ?_⟩
  · rw [← h.reached.source, Cursor.source, htaken, List.append_assoc]
  · rw [h.reached.placed, htaken]

end Sited

end ExprFront
