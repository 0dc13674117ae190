import ExprFront.Proofs.Lexemes

/-!
# Tokens stand where they say

A position is kept up to date fragment by fragment, by a rule that understands no line
break inside a fragment.  This module shows that the rule is enough: every position that
the cursor hands out is the true coordinate of a place in the source, counted from the
start of the source.

* `coordinate` is the true coordinate: the line breaks before a place, and the characters
  since the last of them.  It moves over a fragment as `Position.advance` does
  (`coordinate_append`), and it grows strictly (`coordinate_before_append`).
* `LaidOut` says that a source is the texts of its tokens with blanks between them, each
  token at its true coordinate.
* `Cursor.Placed` is the invariant: the cursor's own position is the coordinate of what
  lies behind it.  Each step keeps it, and so does each run of steps.
-/

namespace ExprFront

/-! ## Coordinates -/

/-- The coordinate of the place after a text: the number of line breaks in the text, and the
number of characters since the last one. -/
def coordinate (before : List Char) : Position :=
  ⟨before.count '\n', (before.reverse.takeWhile (· ≠ '\n')).length⟩

/-- Text without a line break moves the column. -/
theorem coordinate_append_inline (before : List Char) {text : List Char} (h : '\n' ∉ text) :
    coordinate (before ++ text) =
      ⟨(coordinate before).row, (coordinate before).col + text.length⟩ := by
  have hall : ∀ c ∈ text.reverse, (decide (c ≠ '\n')) = true := by
    intro c hc
    rw [decide_eq_true_eq]
    rintro rfl
    exact h (List.mem_reverse.1 hc)
  simp only [coordinate, List.count_append, List.count_eq_zero.2 h, List.reverse_append,
    List.takeWhile_append_of_pos hall, List.length_append, List.length_reverse]
  rw [Position.mk.injEq]
  omega

/-- A line break starts the next row. -/
theorem coordinate_append_newline (before : List Char) :
    coordinate (before ++ ['\n']) = ⟨(coordinate before).row + 1, 0⟩ := by
  simp [coordinate]

/-- The coordinate moves over a fragment as positions do. -/
theorem coordinate_append (before : List Char) {text : List Char}
    (h : text = ['\n'] ∨ '\n' ∉ text) :
    coordinate (before ++ text) = (coordinate before).advance text := by
  by_cases hbreak : text = ['\n']
  · rw [hbreak, coordinate_append_newline, Position.advance, if_pos rfl]
  · rw [coordinate_append_inline before (h.resolve_left hbreak), Position.advance,
      if_neg hbreak]

/-- The order of positions in a source: by row, then by column. -/
def Position.Before (p q : Position) : Prop := p.row < q.row ∨ p.row = q.row ∧ p.col < q.col

theorem Position.Before.trans {p q r : Position} (hpq : p.Before q) (hqr : q.Before r) :
    p.Before r := by
  unfold Position.Before at *
  omega

/-- More text means a later coordinate. -/
theorem coordinate_before_append (before : List Char) {text : List Char} (h : text ≠ []) :
    (coordinate before).Before (coordinate (before ++ text)) := by
  induction text generalizing before with
  | nil => exact absurd rfl h
  | cons c rest ih =>
    have hstep : (coordinate before).Before (coordinate (before ++ [c])) := by
      by_cases hc : c = '\n'
      · rw [hc, coordinate_append_newline]
        left
        show (coordinate before).row < (coordinate before).row + 1
        omega
      · rw [coordinate_append_inline before (by simpa using Ne.symm hc)]
        right
        refine ⟨rfl, ?_⟩
        show (coordinate before).col < (coordinate before).col + (1 : Nat)
        omega
    cases rest with
    | nil => exact hstep
    | cons d rest =>
      have htail := ih (before ++ [c]) (List.cons_ne_nil d rest)
      rw [List.append_assoc, List.singleton_append] at htail
      exact hstep.trans htail

/-! ## Sources laid out in tokens -/

/-- `LaidOut before ts code`: the text `code`, which follows `before` in a source, is the
texts of the tokens `ts` in order, with blanks before each of them.  Each token is at the
coordinate where its text starts.  The last one is the end of input, which stands before
the blanks that are left. -/
inductive LaidOut : List Char → List Token → List Char → Prop where
  | finish {before gap : List Char} (hgap : IsGap gap) :
      LaidOut before [⟨.endOfInput, coordinate before, ""⟩] gap
  | token {before gap after : List Char} {t : Token} {ts : List Token} (hgap : IsGap gap)
      (hend : t.isEnd = false) (htext : t.text ≠ "") (hpos : t.pos = coordinate (before ++ gap))
      (tail : LaidOut (before ++ gap ++ t.text.toList) ts after) :
      LaidOut before (t :: ts) (gap ++ (t.text.toList ++ after))

/-- A token with text ends after the place where its blanks start. -/
theorem coordinate_before_token (before gap : List Char) {t : Token} (htext : t.text ≠ "") :
    (coordinate before).Before (coordinate (before ++ gap ++ t.text.toList)) := by
  rw [List.append_assoc]
  apply coordinate_before_append
  simp [htext]

/-- No token of a laid out text stands before it. -/
theorem LaidOut.not_before {before code : List Char} {ts : List Token}
    (h : LaidOut before ts code) :
    ∀ t ∈ ts, coordinate before = t.pos ∨ (coordinate before).Before t.pos := by
  induction h with
  | finish hgap =>
    intro t ht
    rw [List.mem_singleton.1 ht]
    exact .inl rfl
  | @token before gap after t ts hgap hend htext hpos tail ih =>
    have hfirst : coordinate before = t.pos ∨ (coordinate before).Before t.pos := by
      rw [hpos]
      by_cases hg : gap = []
      · rw [hg, List.append_nil]
        exact .inl rfl
      · exact .inr (coordinate_before_append before hg)
    intro u hu
    rcases List.mem_cons.1 hu with rfl | hu
    · exact hfirst
    · have hstep := coordinate_before_token before gap htext
      rcases ih u hu with he | hlt
      · exact .inr (he ▸ hstep)
      · exact .inr (hstep.trans hlt)

/-- The positions of the tokens grow strictly. -/
theorem LaidOut.pairwise_before {before code : List Char} {ts : List Token}
    (h : LaidOut before ts code) : ts.Pairwise (fun t u => t.pos.Before u.pos) := by
  induction h with
  | finish hgap => exact List.pairwise_singleton _ _
  | @token before gap after t ts hgap hend htext hpos tail ih =>
    refine List.pairwise_cons.2 ⟨?_, ih⟩
    intro u hu
    have hstep : t.pos.Before (coordinate (before ++ gap ++ t.text.toList)) := by
      simpa [hpos] using coordinate_before_token (before ++ gap) [] htext
    rcases tail.not_before u hu with he | hlt
    · exact he ▸ hstep
    · exact hstep.trans hlt

/-! ## Runs of steps -/

/-- What holds of every answer of a step, with the state that it leaves. -/
theorem forall_runSteps {σ ι α : Type} {step : σ → ι → Outcome σ α} (Inv : σ → Prop)
    (Post : Except Failure α → σ → Prop)
    (hok : ∀ s i a s', Inv s → step s i = .ok a s' → Inv s' ∧ Post (.ok a) s')
    (herror : ∀ s i f s', Inv s → step s i = .error f s' → Inv s' ∧ Post (.error f) s')
    (s : σ) (is : List ι) (hs : Inv s) : ∀ r ∈ runSteps step s is, Inv r.2 ∧ Post r.1 r.2 := by
  induction is generalizing s with
  | nil =>
    intro r hr
    cases hr
  | cons i is ih =>
    intro r hr
    rw [runSteps] at hr
    cases hstep : step s i with
    | ok a s' =>
      rw [hstep] at hr
      have hs' := hok s i a s' hs hstep
      rcases List.mem_cons.1 hr with rfl | hr
      · exact hs'
      · exact ih s' hs'.1 r hr
    | error f s' =>
      rw [hstep] at hr
      have hs' := herror s i f s' hs hstep
      rcases List.mem_cons.1 hr with rfl | hr
      · exact hs'
      · exact ih s' hs'.1 r hr

/-! ## The cursor -/

namespace Cursor

/-- The cursor's position is the true coordinate of what lies behind it. -/
def Placed (c : Cursor) : Prop := c.pos = coordinate c.taken.reverse

/-- `p` is the true coordinate of the first character that is no blank from the cursor on. -/
def FailsAt (c : Cursor) (p : Position) : Prop :=
  ∃ gap x bad, c.rest = gap ++ x :: bad ∧ IsGap gap ∧ isGap x = false ∧
    p = coordinate (c.taken.reverse ++ gap)

theorem placed_start (source filename : String) (convert : Converter) :
    (start source filename convert).Placed := rfl

/-- What lies behind the cursor is the part of the source up to its offset. -/
theorem take_offset_source (c : Cursor) : c.source.take c.offset = c.taken.reverse := by
  rw [source, offset, ← List.length_reverse, List.take_left]

/-- A blank run moves a placed position to the coordinate after it. -/
theorem Placed.advance_gap {c : Cursor} (hc : c.Placed) {gap : List Char} (hgap : IsGap gap) :
    c.pos.advance gap = coordinate (c.taken.reverse ++ gap) := by
  rw [hc, coordinate_append _ (.inr (newline_notMem_of_isGap hgap))]

/-- One step keeps the cursor placed. -/
theorem Placed.next {c c' : Cursor} {t : Token} (hc : c.Placed) (h : c.next = .ok (t, c')) :
    c'.Placed := by
  rcases next_cases h with ⟨-, rfl, -⟩ | ⟨gap, text, after, shape, lexeme, -, hgap, ht, -, -, rfl⟩
  · exact hc
  · show (c.pos.advance gap).advance text = coordinate ((gap ++ text).reverse ++ c.taken).reverse
    rw [hc.advance_gap hgap, ← coordinate_append _ (Fragment.take?_break ht)]
    simp

/-- A failed step is at the character after the blanks. -/
theorem Placed.next_error {c : Cursor} {e : LexError} (hc : c.Placed)
    (h : c.next = .error (.lexical e)) : c.FailsAt e.pos := by
  obtain ⟨gap, x, bad, hrest, hgap, hx, hf⟩ := Cursor.next_error h
  refine ⟨gap, x, bad, hrest, hgap, hx, ?_⟩
  rw [← hc.advance_gap hgap]
  rcases hf with ⟨-, he⟩ | ⟨text, err, -, -, he⟩
  · cases he
    rfl
  · unfold numeralFailure at he
    split at he <;> cases he <;> rfl

theorem source_next {c c' : Cursor} {t : Token} (h : c.next = .ok (t, c')) :
    c'.source = c.source := by
  rcases next_cases h with ⟨-, rfl, -⟩ | ⟨gap, text, after, shape, lexeme, hr, -, -, -, -, rfl⟩
  · rfl
  · simp [source, hr]

/-- A run to the end keeps the cursor placed in its source, and a run that fails has failed
in the step that it stopped before. -/
theorem Placed.tokens {c : Cursor} (hc : c.Placed) (includeSkips : Bool) :
    match c.tokens includeSkips with
    | .ok _ c' => c'.Placed ∧ c'.source = c.source
    | .error f c' => c'.Placed ∧ c'.source = c.source ∧ c'.next = .error f := by
  fun_induction Cursor.tokens includeSkips c with
  | case1 c e hn => exact ⟨hc, rfl, hn⟩
  | case2 c t c' hn hend => exact ⟨hc.next hn, source_next hn⟩
  | case3 c t c' hn hend e c'' htail ih =>
    have ih := ih (hc.next hn)
    rw [htail] at ih
    exact ⟨ih.1, ih.2.1.trans (source_next hn), ih.2.2⟩
  | case4 c t c' hn hend ts c'' htail ih =>
    have ih := ih (hc.next hn)
    rw [htail] at ih
    exact ⟨ih.1, ih.2.trans (source_next hn)⟩

/-- The tokens of a run to the end lay out the text ahead. -/
theorem Placed.laidOut {c c' : Cursor} {ts : List Token} (hc : c.Placed)
    (h : c.tokens true = .ok ts c') : LaidOut c.taken.reverse ts c.rest := by
  fun_induction Cursor.tokens true c generalizing ts with
  | case1 c e hn => cases h
  | case2 c t c1 hn hend =>
    cases h
    obtain ⟨rfl, rfl, hgap⟩ := next_end hn hend
    rw [hc]
    exact .finish hgap
  | case3 c t c1 hn hend e c2 htail ih => cases h
  | case4 c t c1 hn hend us c2 htail ih =>
    simp only [Bool.not_true, Bool.and_false, Bool.false_eq_true, if_false] at h
    cases h
    have ih := ih (hc.next hn) htail
    rcases next_cases hn with
      ⟨rfl, rfl, _⟩ | ⟨gap, text, after, shape, lexeme, hr, hgap, ht, _, rfl, rfl⟩
    · simp [Token.isEnd] at hend
    · have hbody : (String.ofList text).toList = text := String.toList_ofList
      rw [hr]
      conv => rhs; rw [← hbody]
      refine .token hgap (by simpa using hend) ?_ (hc.advance_gap hgap) ?_
      · have := (Fragment.take?_isPrefixOf ht).1
        simpa using this
      · simpa [hbody] using ih

/-- A step of the cursor that answers keeps it placed. -/
theorem Placed.step_ok {c c' : Cursor} {i : Step} {a : Answer} (hc : c.Placed)
    (h : c.step i = .ok a c') : c'.Placed := by
  cases i with
  | scan =>
    rw [step] at h
    split at h
    · cases h
    · next t c1 hn =>
      cases h
      exact hc.next hn
  | tokenize includeSkips =>
    have hrun := hc.tokens includeSkips
    rw [step] at h
    split at h
    · cases h
    · next ts c1 ht =>
      cases h
      rw [ht] at hrun
      exact hrun.1
  | append text =>
    cases h
    exact hc

/-- A step of the cursor that fails keeps it placed, before the place of the failure. -/
theorem Placed.step_error {c c' : Cursor} {i : Step} {f : Failure} (hc : c.Placed)
    (h : c.step i = .error f c') : c'.Placed ∧ c'.next = .error f := by
  cases i with
  | scan =>
    rw [step] at h
    split at h
    · next e hn =>
      cases h
      exact ⟨hc, hn⟩
    · cases h
  | tokenize includeSkips =>
    have hrun := hc.tokens includeSkips
    rw [step] at h
    split at h
    · next e c1 ht =>
      cases h
      rw [ht] at hrun
      exact ⟨hrun.1, hrun.2.2⟩
    · cases h
  | append text => cases h

end Cursor

/-! ## Fidelity -/

/-- The tokens of a source, skipped ones included, lay it out from end to end and their
positions grow.  The position of a failure, and the position of the cursor after any
sequence of steps, are true coordinates too. -/
theorem tokenize_coordinates (source filename : String) (convert : Converter) :
    (∀ ts, tokenize source filename convert true = .ok ts →
      LaidOut [] ts source.toList ∧ ts.Pairwise (fun t u => t.pos.Before u.pos)) ∧
    (∀ includeSkips e, tokenize source filename convert includeSkips = .error (.lexical e) →
      ∃ c : Cursor, c.source = source.toList ∧ c.next = .error (.lexical e) ∧
        c.FailsAt e.pos) ∧
    ∀ steps, ∀ r ∈ runSteps Cursor.step (.start source filename convert) steps,
      r.2.pos = coordinate (r.2.source.take r.2.offset) ∧
        ∀ e, r.1 = .error (.lexical e) → r.2.FailsAt e.pos := by
  have hstart := Cursor.placed_start source filename convert
  refine ⟨?_, ?_, ?_⟩
  · intro ts h
    unfold tokenize at h
    split at h
    · cases h
    · next us c' hrun =>
      cases h
      have hlaid := hstart.laidOut hrun
      exact ⟨hlaid, hlaid.pairwise_before⟩
  · intro includeSkips e h
    have hrun := hstart.tokens includeSkips
    unfold tokenize at h
    split at h
    · next f c' ht =>
      cases h
      rw [ht] at hrun
      exact ⟨c', hrun.2.1, hrun.2.2, hrun.1.next_error hrun.2.2⟩
    · cases h
  · intro steps r hr
    have hrun := forall_runSteps Cursor.Placed
      (fun a c => ∀ e, a = .error (.lexical e) → c.FailsAt e.pos)
      (fun c i a c' hc h => ⟨hc.step_ok h, fun e he => by cases he⟩)
      (fun c i f c' hc h => by
        have hfail := hc.step_error h
        refine ⟨hfail.1, fun e he => ?_⟩
        cases he
        exact hfail.1.next_error hfail.2)
      _ steps hstart r hr
    rw [Cursor.take_offset_source]
    exact hrun

end ExprFront
