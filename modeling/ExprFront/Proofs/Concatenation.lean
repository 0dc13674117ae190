import ExprFront.Proofs.Coordinates
import ExprFront.Proofs.Likeness
import ExprFront.Proofs.Writing

/-!
# Programs one after the other

Two programs make one when a line break stands between them.  There are no separators
between statements, so this needs that the second program does not go on with the first:
it must not begin with a minus sign, nor with a parenthesis after the word that starts a
function.

* A line break ends every fragment: what follows it does not change what is taken before it
  (`Fragment.take?_line`).  So appending a line to a source keeps the tokens that it has
  (`Cursor.Placed.ahead_append_line`).
* Text that stands further down has the same tokens further down (`Cursor.ahead_down`).
* Two programs that may follow each other are one (`Program.append`).

Main result: `parseProgram_append`.
-/

namespace ExprFront

open Grammar (lambdaWord)

/-! ## A line break ends every fragment -/

section Lines

variable (cs line : List Char) {p : Char → Bool}

theorem takeWhile_line (hp : p '\n' = false) :
    (cs ++ '\n' :: line).takeWhile p = cs.takeWhile p := by
  induction cs with
  | nil => exact List.takeWhile_cons_of_neg (by simp [hp])
  | cons c cs ih =>
    rw [List.cons_append, List.takeWhile_cons, List.takeWhile_cons, ih]

theorem dropWhile_line (hp : p '\n' = false) :
    (cs ++ '\n' :: line).dropWhile p = cs.dropWhile p ++ '\n' :: line := by
  induction cs with
  | nil => exact List.dropWhile_cons_of_neg (by simp [hp])
  | cons c cs ih =>
    rw [List.cons_append, List.dropWhile_cons, List.dropWhile_cons, ih]
    split
    · rfl
    · rfl

namespace Fragment

theorem unsigned_line : unsigned (cs ++ '\n' :: line) = unsigned cs := by
  rw [unsigned, unsigned, takeWhile_line cs line rfl, dropWhile_line cs line rfl]
  congr 1
  cases cs.dropWhile Char.isDigit with
  | nil => rfl
  | cons c rest =>
    by_cases hc : c = '.'
    · subst hc
      simp only [List.cons_append, takeWhile_line rest line (p := Char.isDigit) rfl]
    · simp [hc]

theorem numeral_line : numeral (cs ++ '\n' :: line) = numeral cs := by
  cases cs with
  | nil => rfl
  | cons c rest =>
    by_cases hc : c = '-'
    · subst hc
      simp only [List.cons_append, numeral, takeWhile_line rest line (p := Char.isDigit) rfl,
        unsigned_line]
    · have hplain : ∀ tail, numeral (c :: tail) =
          if ((c :: tail).takeWhile Char.isDigit).isEmpty then [] else unsigned (c :: tail) := by
        intro tail
        rw [numeral]
        intro r hr
        exact hc (List.cons.inj hr).1
      rw [List.cons_append, hplain, hplain, ← List.cons_append,
        takeWhile_line (c :: rest) line rfl, unsigned_line]

theorem word_line : word (cs ++ '\n' :: line) = word cs := by
  cases cs with
  | nil => rfl
  | cons c rest => rw [List.cons_append, word, word, takeWhile_line rest line (by decide)]

theorem particle?_line (hcs : cs ≠ []) : particle? (cs ++ '\n' :: line) = particle? cs := by
  match cs with
  | [] => exact absurd rfl hcs
  | [c] =>
    have hnone : Particle.two? c '\n' = none := by
      cases h : Particle.two? c '\n' with
      | none => rfl
      | some p => exact absurd rfl (Particle.two?_ne_newline h).2
    simp only [List.cons_append, List.nil_append, particle?, hnone]
  | c :: d :: rest => rfl

theorem skipped?_line (hcs : cs ≠ []) : skipped? (cs ++ '\n' :: line) = skipped? cs := by
  obtain ⟨c, rest, rfl⟩ := List.exists_cons_of_ne_nil hcs
  by_cases hn : c = '\n'
  · subst hn
    rfl
  by_cases hs : c = '/'
  · subst hs
    match rest with
    | [] => rfl
    | d :: rest =>
      by_cases hd : d = '/'
      · subst hd
        simp only [List.cons_append, skipped?, takeWhile_line rest line (p := (· ≠ '\n')) rfl]
      · simp [skipped?, hd]
  · rw [List.cons_append, skipped?_eq_none hn hs, skipped?_eq_none hn hs]

/-- What stands on the next line does not change the fragment that is taken. -/
theorem take?_line (hcs : cs ≠ []) : take? (cs ++ '\n' :: line) = take? cs := by
  rw [take?, take?, skipped?_line cs line hcs, numeral_line, word_line,
    particle?_line cs line hcs]

end Fragment

end Lines

/-! ## Tokens further down -/

/-- The same column, some rows further down. -/
def Position.down (n : Int) (p : Position) : Position := ⟨p.row + n, p.col⟩

/-- The same token, some rows further down. -/
def Token.down (n : Int) (t : Token) : Token := { t with pos := t.pos.down n }

@[simp] theorem Token.isEnd_down (n : Int) (t : Token) : (t.down n).isEnd = t.isEnd := rfl

@[simp] theorem Token.isSkip_down (n : Int) (t : Token) : (t.down n).isSkip = t.isSkip := rfl

theorem Position.down_advance (n : Int) (p : Position) (text : List Char) :
    (p.down n).advance text = (p.advance text).down n := by
  unfold advance down
  split
  · simp only [mk.injEq, and_true]
    omega
  · rfl

namespace Cursor

/-- The same text from a place further down gives the same tokens further down. -/
theorem ahead_down (n : Int) (c : Cursor) (h : c.ahead.failure? = none) :
    ∀ d : Cursor, d.rest = c.rest → d.convert = c.convert → d.pos = c.pos.down n →
      d.ahead = ⟨c.ahead.tokens.map (Token.down n), none⟩ := by
  -- One step of the lower cursor, from one of the upper cursor that takes a fragment.
  have hstep : ∀ {c c' d : Cursor} {t : Token}, c.next = .ok (t, c') → t.isEnd = false →
      d.rest = c.rest → d.convert = c.convert → d.pos = c.pos.down n →
      ∃ d' : Cursor, d.next = .ok (t.down n, d') ∧ d'.rest = c'.rest ∧ d'.convert = c'.convert ∧
        d'.pos = c'.pos.down n := by
    intro c c' d t hnext hend hrest hconvert hpos
    rcases next_cases hnext with
      ⟨rfl, -, -⟩ | ⟨gap, text, after, shape, l, hr, hgap, ht, hl, rfl, rfl⟩
    · cases hend
    · have hnext' := next_eq_of_take? (hrest.trans hr) hgap ht (hconvert ▸ hl)
      rw [hpos, Position.down_advance, Position.down_advance] at hnext'
      exact ⟨_, hnext', rfl, hconvert, rfl⟩
  fun_induction ahead c with
  | case1 c e hnext => cases h
  | case2 c t c' hnext hend =>
    intro d hrest _ _
    obtain ⟨-, -, hgap⟩ := next_end hnext hend
    exact (ahead_of_ok (next_of_isGap (hrest ▸ hgap))).trans (if_pos rfl)
  | case3 c t c' hnext hend hskip ih =>
    intro d hrest hconvert hpos
    obtain ⟨d', hnext', hrest', hconvert', hpos'⟩ :=
      hstep hnext (by simpa using hend) hrest hconvert hpos
    rw [ahead_of_ok hnext', Token.isEnd_down, if_neg hend, Token.isSkip_down, if_pos hskip]
    exact ih h d' hrest' hconvert' hpos'
  | case4 c t c' hnext hend hskip ih =>
    intro d hrest hconvert hpos
    obtain ⟨d', hnext', hrest', hconvert', hpos'⟩ :=
      hstep hnext (by simpa using hend) hrest hconvert hpos
    rw [ahead_of_ok hnext', Token.isEnd_down, if_neg hend, Token.isSkip_down, if_neg hskip,
      ih h d' hrest' hconvert' hpos', List.map_cons]

/-! ## A line more -/

/-- A token that is scanned is scanned again when a line is appended to the source. -/
theorem next_append_line {c c' : Cursor} {t : Token} (h : c.next = .ok (t, c'))
    (hend : t.isEnd = false) (line : String) :
    (c.append ("\n" ++ line)).next = .ok (t, c'.append ("\n" ++ line)) := by
  rcases next_cases h with ⟨rfl, -, -⟩ | ⟨gap, text, after, shape, l, hr, hgap, ht, hl, rfl, rfl⟩
  · cases hend
  · have hline : ("\n" ++ line).toList = '\n' :: line.toList := by
      rw [String.toList_append]
      rfl
    have hne := (Fragment.take?_isPrefixOf ht).1
    rw [← Fragment.take?_line _ line.toList (by simp [hne]), List.append_assoc, ← hline] at ht
    refine next_eq_of_take? (c := c.append ("\n" ++ line)) ?_ hgap ht hl
    rw [append, hr, List.append_assoc, List.append_assoc]

/-- A line that is appended to a source adds its own tokens, on the next row after the source,
and changes none that the source has. -/
theorem Placed.ahead_append_line {c : Cursor} (hc : c.Placed) (h : c.ahead.failure? = none)
    (line : String) :
    ∃ d : Cursor, d.rest = line.toList ∧ d.convert = c.convert ∧
      d.pos = ⟨c.source.count '\n' + 1, 0⟩ ∧
      (c.append ("\n" ++ line)).ahead =
        ⟨c.ahead.tokens ++ d.ahead.tokens, d.ahead.failure?⟩ := by
  fun_induction ahead c with
  | case1 c e hnext => cases h
  | case2 c t c' hnext hend =>
    -- Behind the last blanks of the source, the line break is the next fragment.
    obtain ⟨-, -, hgap⟩ := next_end hnext hend
    have hrest : (c.append ("\n" ++ line)).rest = c.rest ++ (['\n'] ++ line.toList) := by
      rw [append, String.toList_append]
      rfl
    have htake : Fragment.take? (['\n'] ++ line.toList) = some (.lineBreak, ['\n']) := rfl
    have hbreak := next_eq_of_take? hrest hgap htake rfl
    refine ⟨_, ?_, ?_, ?_,
      (ahead_of_ok hbreak).trans ((if_neg Bool.false_ne_true).trans (if_pos rfl))⟩
    · rfl
    · rfl
    · have hcount : c.source.count '\n' = c.taken.reverse.count '\n' := by
        rw [source, List.count_append, List.count_eq_zero.2 (newline_notMem_of_isGap hgap)]
        rfl
      show (c.pos.advance c.rest).advance ['\n'] = _
      rw [hc.advance_gap hgap, Position.advance, if_pos rfl,
        coordinate_append_inline _ (newline_notMem_of_isGap hgap), hcount]
      rfl
  | case3 c t c' hnext hend hskip ih =>
    have hnext' := next_append_line hnext (by simpa using hend) line
    obtain ⟨d, hrest, hconvert, hpos, hahead⟩ := ih (hc.next hnext) h
    rw [convert_next hnext] at hconvert
    rw [source_next hnext] at hpos
    refine ⟨d, hrest, hconvert, hpos, ?_⟩
    rw [ahead_of_ok hnext', if_neg hend, if_pos hskip, hahead]
  | case4 c t c' hnext hend hskip ih =>
    have hnext' := next_append_line hnext (by simpa using hend) line
    obtain ⟨d, hrest, hconvert, hpos, hahead⟩ := ih (hc.next hnext) h
    rw [convert_next hnext] at hconvert
    rw [source_next hnext] at hpos
    refine ⟨d, hrest, hconvert, hpos, ?_⟩
    rw [ahead_of_ok hnext', if_neg hend, if_neg hskip, hahead]
    rfl

end Cursor

/-! ## Programs that follow each other -/

/-- A program that begins with `us` does not go on with one that ends with `ts`. -/
structure Parts (ts us : List Token) : Prop where
  minus : ts ≠ [] → ¬ Next .minus us
  lambda : ¬ (LastName lambdaWord ts ∧ Next .leftParen us)

/-- Two programs are one if the second does not go on with the first. -/
theorem Program.append {ss ss' : List Stmt} {ts us : List Token} (h : Program ss ts)
    (h' : Program ss' us) (hparts : Parts ts us) : Program (ss ++ ss') (ts ++ us) := by
  induction h with
  | nil => exact h'
  | @cons s ss ts rest head tail ih =>
    have hne := head.reads.ne_nil
    rw [List.append_assoc]
    by_cases hrest : rest = []
    · -- The last statement of the first program is the one that now meets a token.
      subst hrest
      rw [List.append_nil] at hparts
      have hstops := stops_of_starts h'.starts (hparts.minus hne) hparts.lambda s.body
      exact .cons ⟨head.reads, head.stratified, hstops⟩
        (ih ⟨fun h => absurd rfl h, fun h => nomatch h.1⟩)
    · have hstops : Stops 0 s.body ts (rest ++ us) :=
        head.stops.of_head (List.head?_append_of_ne_nil _ hrest)
      refine .cons ⟨head.reads, head.stratified, hstops⟩ (ih ⟨fun _ => ?_, fun h => ?_⟩)
      · exact hparts.minus (by simp [hne])
      · exact hparts.lambda ⟨(lastName_append hrest).2 h.1, h.2⟩

/-- The program of a buffer is the program of any other buffer that has the same tokens some
rows further down, moved down as far. -/
theorem Program.of_down {c : Config} (hvalid : c.Valid) {source : String} {ss : List Stmt}
    (h : parseProgram c source = .ok ss) {n : Int} {d : Cursor}
    (hahead : d.ahead = ⟨(c.session source).ahead.tokens.map (Token.down n), none⟩) :
    Program (ss.map (Stmt.mapPos (Position.down n))) d.ahead.tokens := by
  let L : Likeness := .placed (fun t t' => t' = t.down n) (fun p p' => p' = p.down n)
    (fun h => by rw [h]; rfl) (fun h => by rw [h]; rfl)
  have hcases := parseProgram_cases c source
  rw [h] at hcases
  have hlike : Buffer.LikeAhead L (c.session source) (.ofCursor d c.maxLookahead) :=
    { tokens := by
        show List.Forall₂ (fun t t' : Token => t' = t.down n) _ d.ahead.tokens
        rw [hahead, List.forall₂_map_right_iff]
        exact List.forall₂_same.2 fun _ _ => rfl
      failure_left := hcases.1
      failure_right := by
        show d.ahead.failure? = none
        rw [hahead]
      capacity_left := hvalid
      capacity_right := hvalid }
  unfold parseProgram at h
  rcases Grammar.program_likeAhead hlike with
    ⟨ss₁, ss₂, b₁, b₂, hrun, hrun', hss⟩ | ⟨x, x', b₁, b₂, hrun, -⟩ |
    ⟨t, t', v, v', b₁, b₂, -, hrun, -⟩
  · rw [hrun] at h
    cases h
    have hmap : ss.map (Stmt.mapPos (Position.down n)) = ss₂ := by
      rw [map_eq_map_of_forall₂ (g := Stmt.mapPos id) hss fun s s' hs =>
        hs.mapPos_eq fun p p' hp => hp.symm]
      exact List.map_id'' Stmt.mapPos_id ss₂
    have hmeets := Grammar.meets_program (.ofCursor d c.maxLookahead)
    unfold Grammar.MeetsIn Grammar.MeetsWith at hmeets
    rw [hrun'] at hmeets
    obtain ⟨ts, hconsumes, hrest, -, hprogram⟩ := hmeets
    rw [hmap]
    have htokens : d.ahead.tokens = ts ++ b₂.ahead.tokens := hconsumes.tokens
    rwa [htokens, hrest, List.append_nil]
  · rw [hrun] at h
    cases h
  · rw [hrun] at h
    cases h

/-- The tokens of two sources with a line break between them are those of the first and then
those of the second, moved down below the first.  A cursor after the line break has the latter
ahead. -/
theorem Config.session_append_line (c : Config) {a b : String} {ts us : List Token}
    (hts : tokenize a c.filename c.convert false = .ok ts)
    (hus : tokenize b c.filename c.convert false = .ok us) :
    ∃ d : Cursor,
      d.ahead = ⟨(significant us).map (Token.down (1 + a.toList.count '\n')), none⟩ ∧
      (c.session (a ++ "\n" ++ b)).ahead = ⟨significant ts ++ d.ahead.tokens, none⟩ := by
  obtain ⟨hfailure, hahead⟩ := ahead_of_tokenize hts
  obtain ⟨hfailure', hahead'⟩ := ahead_of_tokenize hus
  obtain ⟨d, hrest, hconvert, hpos, hjoined⟩ :=
    (Cursor.placed_start a c.filename c.convert).ahead_append_line hfailure b
  have hdown : d.ahead = ⟨(significant us).map (Token.down (1 + a.toList.count '\n')), none⟩ := by
    rw [← hahead']
    refine Cursor.ahead_down _ _ hfailure' d hrest hconvert ?_
    rw [hpos]
    show Position.mk (a.toList.count '\n' + 1) 0 = ⟨0 + (1 + a.toList.count '\n'), 0⟩
    rw [Position.mk.injEq]
    omega
  have hwhole : Cursor.start (a ++ "\n" ++ b) c.filename c.convert =
      (Cursor.start a c.filename c.convert).append ("\n" ++ b) := by
    simp [Cursor.start, Cursor.append, String.toList_append]
  refine ⟨d, hdown, ?_⟩
  show (Cursor.start (a ++ "\n" ++ b) c.filename c.convert).ahead = _
  rw [hwhole, hjoined, hahead, hdown]

theorem next_map_down {n : Int} {p : Particle} {ts : List Token} :
    Next p (ts.map (Token.down n)) ↔ Next p ts := by
  rw [Next, Next, List.head?_map, Option.map_map]
  rfl

/-- Two sources with a line break between them have the statements of the first and then
those of the second, moved down below the first, unless the second goes on with the first. -/
theorem parseProgram_append {c : Config} (hvalid : c.Valid) {a b : String} {ss ss' : List Stmt}
    (ha : parseProgram c a = .ok ss) (hb : parseProgram c b = .ok ss') {ts us : List Token}
    (hts : tokenize a c.filename c.convert false = .ok ts)
    (hus : tokenize b c.filename c.convert false = .ok us)
    (hminus : significant ts ≠ [] → ¬ Next .minus (significant us))
    (hlambda : ¬ (LastName lambdaWord (significant ts) ∧ Next .leftParen (significant us))) :
    parseProgram c (a ++ "\n" ++ b) =
      .ok (ss ++ ss'.map (Stmt.mapPos (Position.down (1 + a.toList.count '\n')))) := by
  obtain ⟨d, hdown, hsession⟩ := c.session_append_line hts hus
  have hcases := parseProgram_cases c a
  rw [ha] at hcases
  have hfirst : Program ss (significant ts) := (ahead_of_tokenize hts).2 ▸ hcases.2
  have hsecond : Program (ss'.map (Stmt.mapPos (Position.down (1 + a.toList.count '\n'))))
      d.ahead.tokens := .of_down hvalid hb ((ahead_of_tokenize hus).2.symm ▸ hdown)
  have hparts : Parts (significant ts) d.ahead.tokens := by
    rw [hdown]
    refine ⟨fun hne hnext => hminus hne (next_map_down.1 hnext), fun h => hlambda ⟨h.1, ?_⟩⟩
    exact next_map_down.1 h.2
  refine parseProgram_of_program hvalid (by rw [hsession]) ?_
  rw [hsession]
  exact hfirst.append hsecond hparts

/-- A source that ends in the word that starts a function, in a comment and in a blank line,
and one that begins with a bracket. -/
theorem parseProgram_append_bracket :
    ∃ ss ss' ts us,
      parseProgram ⟨.integer, anonymous, 2⟩ "x = -1\nfn // last\n" = .ok ss ∧
      parseProgram ⟨.integer, anonymous, 2⟩ "[x -\n1]" = .ok ss' ∧
      tokenize "x = -1\nfn // last\n" anonymous .integer false = .ok ts ∧
      tokenize "[x -\n1]" anonymous .integer false = .ok us ∧
      LastName lambdaWord (significant ts) ∧ Next .leftBracket (significant us) ∧
      parseProgram ⟨.integer, anonymous, 2⟩ ("x = -1\nfn // last\n" ++ "\n" ++ "[x -\n1]") =
        .ok (ss ++ ss'.map (Stmt.mapPos (Position.down 3))) := by
  have hts : tokenize "x = -1\nfn // last\n" anonymous .integer false =
      .ok [⟨.name "x", ⟨0, 0⟩, "x"⟩, ⟨.particle .assign, ⟨0, 2⟩, "="⟩,
        ⟨.number (.integer (-1)), ⟨0, 4⟩, "-1"⟩, ⟨.name "fn", ⟨1, 0⟩, "fn"⟩,
        ⟨.endOfInput, ⟨2, 0⟩, ""⟩] := by
    decide +kernel
  have hus : tokenize "[x -\n1]" anonymous .integer false =
      .ok [⟨.particle .leftBracket, ⟨0, 0⟩, "["⟩, ⟨.name "x", ⟨0, 1⟩, "x"⟩,
        ⟨.particle .minus, ⟨0, 3⟩, "-"⟩, ⟨.number (.integer 1), ⟨1, 0⟩, "1"⟩,
        ⟨.particle .rightBracket, ⟨1, 1⟩, "]"⟩, ⟨.endOfInput, ⟨1, 2⟩, ""⟩] := by
    decide +kernel
  have ha : (parseProgram ⟨.integer, anonymous, 2⟩ "x = -1\nfn // last\n").isOk = true := by
    decide +kernel
  have hb : (parseProgram ⟨.integer, anonymous, 2⟩ "[x -\n1]").isOk = true := by
    decide +kernel
  cases hss : parseProgram ⟨.integer, anonymous, 2⟩ "x = -1\nfn // last\n" with
  | error f =>
    rw [hss] at ha
    cases ha
  | ok ss =>
    cases hss' : parseProgram ⟨.integer, anonymous, 2⟩ "[x -\n1]" with
    | error f =>
      rw [hss'] at hb
      cases hb
    | ok ss' =>
      exact ⟨ss, ss', _, _, rfl, rfl, hts, hus, rfl, rfl,
        parseProgram_append (c := ⟨.integer, anonymous, 2⟩) (Int.le_refl 2) hss hss' hts hus
          (fun _ => nofun) (fun h => nomatch h.2)⟩

end ExprFront
