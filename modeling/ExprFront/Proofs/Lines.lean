import ExprFront.Proofs.Concatenation
import ExprFront.Proofs.ReadPoint

/-!
# Scanning line by line

No fragment reaches over a line break, and no choice of the scanner depends on what stands behind
one.  So a source may be scanned line by line: each line by itself, from the first column of its
row, with a line break in place of the end of input of every line but the last.

* A scan that begins further down gives the same token, or the same failure, further down
  (`scan_down`), and what stands on the next line does not change it (`scan_line`).
* `tokensFrom` scans a text that begins at any position.  `tokensFrom_eq` unfolds it by one scan,
  so that both facts carry over to whole texts (`tokensFrom_down`, `tokensFrom_line`).
* `tokensOfLines` puts the tokens of lines together.  It is what scanning the lines as one text
  gives (`tokensFrom_eq_tokensOfLines`).

Main result: `tokenize_lines`.
-/

namespace ExprFront

/-! ## Scans further down -/

/-- The same failure, some rows further down.  Only failures of scanning have a place that
moves. -/
def Failure.down (n : Int) : Failure → Failure
  | .lexical e => .lexical { e with pos := e.pos.down n }
  | f => f

/-- The same scan, some rows further down. -/
def Scan.down (n : Int) (s : Scan) : Scan := ⟨s.token.down n, s.width, s.next.down n⟩

theorem numeralFailure_down (n : Int) (filename text : String) (pos : Position)
    (e : ConversionError) :
    numeralFailure filename text (pos.down n) e = (numeralFailure filename text pos e).down n := by
  unfold numeralFailure
  cases e.kind <;> rfl

/-- A scan that begins further down is the same scan further down. -/
theorem scan_down (n : Int) (convert : Converter) (filename : String) (code : List Char)
    (pos : Position) :
    scan convert filename code (pos.down n) =
      match scan convert filename code pos with
      | .error f => .error (f.down n)
      | .ok s => .ok (s.down n) := by
  unfold scan
  simp only [Position.down_advance]
  split
  · rfl
  · split
    · rfl
    · split
      · exact congrArg Except.error (numeralFailure_down ..)
      · rfl

/-! ## Scans on one line -/

theorem Position.advance_inline (p : Position) {text : List Char} (h : '\n' ∉ text) :
    p.advance text = ⟨p.row, p.col + text.length⟩ := by
  rw [advance, if_neg]
  rintro rfl
  exact h List.mem_cons_self

section Lines

variable {convert : Converter} {filename : String} {pos : Position} {line : List Char}

/-- Scanning on a line moves along the line. -/
theorem scan_next_inline {s : Scan} (hline : '\n' ∉ line)
    (h : scan convert filename line pos = .ok s) :
    s.next = ⟨pos.row, pos.col + s.width⟩ := by
  rcases scan_cases h with ⟨-, rfl⟩ | ⟨shape, text, lexeme, ht, -, rfl⟩
  · simp
  · have hgap : '\n' ∉ line.takeWhile isGap := newline_notMem_of_isGap (isGap_takeWhile line)
    have htext : '\n' ∉ text := fun hmem =>
      hline ((List.dropWhile_sublist isGap).mem ((Fragment.take?_isPrefixOf ht).2.mem hmem))
    simp only [Position.advance_inline _ hgap, Position.advance_inline _ htext, Int.natCast_add,
      Int.add_assoc]

/-- What stands on the next line does not change a scan, unless only blanks are left on this
one. -/
theorem scan_line (h : ¬ IsGap line) (more : List Char) :
    scan convert filename (line ++ '\n' :: more) pos = scan convert filename line pos := by
  obtain ⟨c, rest, hdrop⟩ : ∃ c rest, line.dropWhile isGap = c :: rest :=
    List.exists_cons_of_ne_nil fun hnil => h (List.dropWhile_eq_nil_iff.1 hnil)
  have htake := Fragment.take?_line (c :: rest) more (List.cons_ne_nil c rest)
  rw [List.cons_append] at htake
  unfold scan
  simp only [takeWhile_line line more (p := isGap) rfl, dropWhile_line line more (p := isGap) rfl,
    hdrop, List.cons_append, htake]

theorem scan_of_isGap (h : IsGap line) :
    scan convert filename line pos = .ok ⟨⟨.endOfInput, pos, ""⟩, 0, pos⟩ := by
  unfold scan
  simp only [List.dropWhile_eq_nil_iff.2 h]

/-- Only where blanks are left does scanning find the end of input. -/
theorem isEnd_of_scan {s : Scan} (h : ¬ IsGap line) (hs : scan convert filename line pos = .ok s) :
    s.token.isEnd = false := by
  rcases scan_cases hs with ⟨hnil, -⟩ | ⟨shape, text, lexeme, -, hl, rfl⟩
  · exact absurd (List.dropWhile_eq_nil_iff.1 hnil) h
  · simp [Token.isEnd, Shape.lexeme_ne_endOfInput hl]

/-- Behind the blanks that are left on a line, the line break is scanned. -/
theorem scan_lineBreak (h : IsGap line) (more : List Char) :
    scan convert filename (line ++ '\n' :: more) pos =
      .ok ⟨⟨.skip, ⟨pos.row, pos.col + line.length⟩, "\n"⟩, line.length + 1, ⟨pos.row + 1, 0⟩⟩ := by
  have hdrop : (line ++ '\n' :: more).dropWhile isGap = '\n' :: more := by
    rw [List.dropWhile_append_of_pos h]
    rfl
  have htake : (line ++ '\n' :: more).takeWhile isGap = line := by
    rw [List.takeWhile_append_of_pos h]
    exact List.append_nil line
  unfold scan
  simp only [hdrop, htake, pos.advance_inline (newline_notMem_of_isGap h)]
  rfl

end Lines

/-! ## Tokens from a position on -/

/-- The tokens of a text that begins at `pos`, skipped ones included, up to the end of input. -/
def tokensFrom (convert : Converter) (filename : String) (pos : Position) (text : List Char) :
    Except Failure (List Token) :=
  answerOf ((⟨[], text, pos, filename, convert⟩ : Cursor).tokens true)

theorem tokenize_eq_tokensFrom (source filename : String) (convert : Converter) :
    tokenize source filename convert true = tokensFrom convert filename .origin source.toList := by
  unfold tokenize tokensFrom Cursor.start
  cases Cursor.tokens true _ <;> rfl

/-- The same tokens, or the same failure, some rows further down. -/
def downBy (n : Int) : Except Failure (List Token) → Except Failure (List Token)
  | .error f => .error (f.down n)
  | .ok ts => .ok (ts.map (Token.down n))

theorem Position.down_zero (p : Position) : p.down 0 = p := by
  rw [down, Int.add_zero]

theorem downBy_zero (r : Except Failure (List Token)) : downBy 0 r = r := by
  have htoken : Token.down 0 = id := funext fun t => by rw [Token.down, Position.down_zero]; rfl
  cases r with
  | ok ts => rw [downBy, htoken, List.map_id]
  | error f =>
    cases f with
    | lexical e => rw [downBy, Failure.down, Position.down_zero]
    | grammatical | breakdown | beyondCapacity | beforeBuffer => rfl

namespace Cursor

theorem answerOf_tokens (c : Cursor) :
    answerOf (c.tokens true) =
      match scan c.convert c.filename c.rest c.pos with
      | .error f => .error f
      | .ok s =>
        if s.token.isEnd then .ok [s.token]
        else (answerOf ((c.advance s).tokens true)).map (s.token :: ·) := by
  cases hscan : scan c.convert c.filename c.rest c.pos with
  | error f =>
    have hnext : c.next = .error f := by simp only [next, hscan]
    rw [tokens]
    split
    · next g hg =>
      rw [hnext] at hg
      cases hg
      rfl
    · next hg =>
      rw [hnext] at hg
      cases hg
  | ok s =>
    have hnext : c.next = .ok (s.token, c.advance s) := by simp only [next, hscan]
    rw [tokens]
    split
    · next hg =>
      rw [hnext] at hg
      cases hg
    · next hg =>
      rw [hnext] at hg
      cases hg
      split
      · next hend =>
        dsimp only
        rw [if_pos hend]
        rfl
      · next hend =>
        dsimp only
        rw [if_neg hend]
        cases (c.advance s).tokens true with
        | error f c'' => rfl
        | ok ts c'' => simp [answerOf, Except.map]

/-- The same text from a place further down gives the same tokens further down, or the same
failure, whatever lies behind the two places. -/
theorem answerOf_tokens_down (n : Int) {c d : Cursor} (hrest : d.rest = c.rest)
    (hconvert : d.convert = c.convert) (hfile : d.filename = c.filename)
    (hpos : d.pos = c.pos.down n) :
    answerOf (d.tokens true) = downBy n (answerOf (c.tokens true)) := by
  induction hlength : c.rest.length using Nat.strong_induction_on generalizing c d with
  | _ k ih =>
    rw [answerOf_tokens d, answerOf_tokens c, hrest, hconvert, hfile, hpos, scan_down]
    cases hscan : scan c.convert c.filename c.rest c.pos with
    | error f => rfl
    | ok s =>
      have hend : (s.down n).token.isEnd = s.token.isEnd := rfl
      simp only [hend]
      split
      · rfl
      · next hend =>
        have hshorter : (c.rest.drop s.width).length < k := by
          have := scan_width_pos hscan (by simpa using hend)
          have := scan_width_le hscan
          rw [List.length_drop]
          omega
        have htail := ih _ hshorter (c := c.advance s) (d := d.advance (s.down n))
          (congrArg (List.drop s.width) hrest) hconvert hfile rfl rfl
        rw [htail]
        cases answerOf ((c.advance s).tokens true) <;> rfl

end Cursor

section Texts

variable (convert : Converter) (filename : String) (pos : Position)

/-- A text that begins further down has the same tokens further down. -/
theorem tokensFrom_down (n : Int) (text : List Char) :
    tokensFrom convert filename (pos.down n) text =
      downBy n (tokensFrom convert filename pos text) :=
  Cursor.answerOf_tokens_down n rfl rfl rfl rfl

/-- The first token of a text, and the tokens of what is left. -/
theorem tokensFrom_eq (text : List Char) :
    tokensFrom convert filename pos text =
      match scan convert filename text pos with
      | .error f => .error f
      | .ok s =>
        if s.token.isEnd then .ok [s.token]
        else (tokensFrom convert filename s.next (text.drop s.width)).map (s.token :: ·) := by
  rw [tokensFrom, Cursor.answerOf_tokens]
  cases scan convert filename text pos with
  | error f => rfl
  | ok s =>
    have hbehind := Cursor.answerOf_tokens_down 0
      (c := ⟨[], text.drop s.width, s.next, filename, convert⟩)
      (d := (⟨[], text, pos, filename, convert⟩ : Cursor).advance s) rfl rfl rfl
      (Position.down_zero _).symm
    rw [downBy_zero] at hbehind
    simp only [hbehind]
    rfl

variable {pos}

/-- The tokens of two texts with a line break between them, if the first is a line: those of the
line, the line break in place of the end of input, and the tokens of the second text from the
next row on. -/
theorem tokensFrom_line {line : List Char} (hline : '\n' ∉ line) (more : List Char) :
    tokensFrom convert filename pos (line ++ '\n' :: more) = do
      let ts ← tokensFrom convert filename pos line
      let us ← tokensFrom convert filename ⟨pos.row + 1, 0⟩ more
      return ts.filter (!·.isEnd) ++ ⟨.skip, ⟨pos.row, pos.col + line.length⟩, "\n"⟩ :: us := by
  -- By induction on the line: each scan leaves a shorter one, from the same row on.
  induction hlength : line.length using Nat.strong_induction_on generalizing line pos with
  | _ k ih =>
    subst hlength
    rw [tokensFrom_eq, tokensFrom_eq convert filename pos line]
    by_cases hgap : IsGap line
    · have hdrop : (line ++ '\n' :: more).drop (line.length + 1) = more := by
        rw [List.drop_append]
        simp
      rw [scan_lineBreak hgap, scan_of_isGap hgap]
      simp only [hdrop]
      cases tokensFrom convert filename ⟨pos.row + 1, 0⟩ more <;> rfl
    · rw [scan_line hgap]
      cases hscan : scan convert filename line pos with
      | error f => rfl
      | ok s =>
        have hend := isEnd_of_scan hgap hscan
        have hle := scan_width_le hscan
        have hshorter : (line.drop s.width).length < line.length := by
          have := scan_width_pos hscan hend
          rw [List.length_drop]
          omega
        have hnext := scan_next_inline hline hscan
        have hmore : '\n' ∉ line.drop s.width := fun hmem => hline (List.mem_of_mem_drop hmem)
        have htail := @ih _ hshorter s.next (line.drop s.width) hmore rfl
        have hcol : s.next.col + (line.drop s.width).length = pos.col + line.length := by
          rw [hnext, List.length_drop]
          dsimp only
          omega
        have hrow : s.next.row = pos.row := by rw [hnext]
        rw [hcol, hrow] at htail
        simp only [hend, Bool.false_eq_true, if_false, List.drop_append_of_le_length hle, htail]
        cases tokensFrom convert filename s.next (line.drop s.width) with
        | error f => rfl
        | ok ts =>
          cases tokensFrom convert filename ⟨pos.row + 1, 0⟩ more with
          | error f => rfl
          | ok us =>
            show Except.ok _ = Except.ok (List.filter _ (s.token :: ts) ++ _)
            rw [List.filter_cons_of_pos (by simp [hend])]
            rfl

end Texts

/-! ## Lines -/

section Lines

variable (convert : Converter) (filename : String)

/-- The tokens of lines below each other, the first of them in row `row`.  Each line is scanned by
itself, from the first column of its row on.  A line break takes the place of the end of input of
every line but the last. -/
def tokensOfLines : (row : Nat) → List (List Char) → Except Failure (List Token)
  | _, [] => .ok []
  | row, [line] => tokensFrom convert filename ⟨row, 0⟩ line
  | row, line :: next :: rest => do
    let ts ← tokensFrom convert filename ⟨row, 0⟩ line
    let us ← tokensOfLines (row + 1) (next :: rest)
    return ts.filter (!·.isEnd) ++ ⟨.skip, ⟨row, line.length⟩, "\n"⟩ :: us

/-- A text has the tokens of its lines. -/
theorem tokensFrom_eq_tokensOfLines (row : Nat) (text : List Char) :
    tokensFrom convert filename ⟨row, 0⟩ text =
      tokensOfLines convert filename row (text.splitOn '\n') := by
  induction hlength : text.length using Nat.strong_induction_on generalizing row text with
  | _ k ih =>
    by_cases hbreak : '\n' ∈ text
    · obtain ⟨line, more, rfl, hline⟩ := List.eq_append_cons_of_mem hbreak
      have hshorter : more.length < k := by
        rw [← hlength, List.length_append, List.length_cons]
        omega
      obtain ⟨next, rest, hmore⟩ :=
        List.exists_cons_of_ne_nil (List.splitOn_ne_nil '\n' more)
      have htail := ih _ hshorter (row + 1) more rfl
      rw [tokensFrom_line convert filename hline, List.splitOn_append_cons_self_of_not_mem hline,
        hmore, tokensOfLines, ← hmore, ← htail, Int.zero_add]
      rfl
    · rw [List.splitOn_eq_singleton hbreak, tokensOfLines]

/-- In its row, a line has the tokens, or the failure, that it has alone. -/
theorem tokensFrom_row (row : Nat) (line : List Char) :
    tokensFrom convert filename ⟨row, 0⟩ line =
      downBy row (tokenize (String.ofList line) filename convert true) := by
  have hrow : (⟨row, 0⟩ : Position) = Position.down row .origin := by
    simp [Position.down, Position.origin]
  rw [hrow, tokensFrom_down, tokenize_eq_tokensFrom, String.toList_ofList]

variable {convert filename}

/-- Lines can be scanned together if each of them can be scanned alone. -/
theorem exists_tokensOfLines_iff (row : Nat) (lines : List (List Char)) :
    (∃ ts, tokensOfLines convert filename row lines = .ok ts) ↔
      ∀ line ∈ lines, ∃ ts, tokenize (String.ofList line) filename convert true = .ok ts := by
  induction lines generalizing row with
  | nil => simp [tokensOfLines]
  | cons line rest ih =>
    rw [List.forall_mem_cons, ← ih (row + 1)]
    cases rest with
    | nil =>
      simp only [tokensOfLines, tokensFrom_row]
      cases tokenize (String.ofList line) filename convert true <;> simp [downBy]
    | cons next rest =>
      rw [tokensOfLines, tokensFrom_row]
      cases tokenize (String.ofList line) filename convert true with
      | error f => simp [downBy, bind, Except.bind]
      | ok ts =>
        cases tokensOfLines convert filename (row + 1) (next :: rest) with
        | error f => simp [downBy, bind, Except.bind]
        | ok us => simp [downBy, bind, Except.bind, pure, Except.pure]

/-- The first line that cannot be scanned decides how scanning fails. -/
theorem tokensOfLines_error (row : Nat) {before : List (List Char)} {line : List Char}
    (after : List (List Char)) {f : Failure}
    (hbefore : ∀ l ∈ before, ∃ ts, tokenize (String.ofList l) filename convert true = .ok ts)
    (h : tokenize (String.ofList line) filename convert true = .error f) :
    tokensOfLines convert filename row (before ++ line :: after) =
      .error (f.down (row + before.length)) := by
  induction before generalizing row with
  | nil =>
    have hline : tokensFrom convert filename ⟨row, 0⟩ line = .error (f.down row) := by
      rw [tokensFrom_row, h]
      rfl
    cases after with
    | nil => simpa [tokensOfLines] using hline
    | cons next rest =>
      rw [List.nil_append, tokensOfLines, hline]
      simp [bind, Except.bind]
  | cons l before ih =>
    obtain ⟨⟨ts, hts⟩, hbefore⟩ := List.forall_mem_cons.1 hbefore
    obtain ⟨next, rest, hrest⟩ :=
      List.exists_cons_of_ne_nil (List.append_ne_nil_of_right_ne_nil before
        (List.cons_ne_nil line after))
    have hrow : ((row + 1 : Nat) + before.length : Int) = row + (l :: before).length := by
      rw [List.length_cons]
      omega
    rw [List.cons_append, hrest, tokensOfLines, ← hrest, ih (row + 1) hbefore, tokensFrom_row, hts,
      hrow]
    rfl

end Lines

/-- A source is scanned line by line.  Its tokens are those of its lines, each scanned from the
first column of its row on, with line breaks between them.  There are such tokens exactly if each
line can be scanned alone.  Otherwise scanning fails as it does on the first line that cannot,
in the row of that line. -/
theorem tokenize_lines (source filename : String) (convert : Converter) :
    let lines := source.toList.splitOn '\n'
    let whole := tokenize source filename convert true
    let alone (line : List Char) := tokenize (String.ofList line) filename convert true
    whole = tokensOfLines convert filename 0 lines ∧
    ((∃ ts, whole = .ok ts) ↔ ∀ line ∈ lines, ∃ ts, alone line = .ok ts) ∧
    ∀ before line after f, lines = before ++ line :: after →
      (∀ l ∈ before, ∃ ts, alone l = .ok ts) → alone line = .error f →
      whole = .error (f.down before.length) := by
  intro lines whole alone
  have hwhole : whole = tokensOfLines convert filename 0 lines :=
    (tokenize_eq_tokensFrom ..).trans (tokensFrom_eq_tokensOfLines convert filename 0 _)
  rw [hwhole]
  refine ⟨rfl, exists_tokensOfLines_iff 0 lines, fun before line after f hlines hbefore hline => ?_⟩
  have herror := tokensOfLines_error 0 after hbefore hline
  rwa [← hlines, Int.natCast_zero, Int.zero_add] at herror

/-- A comment and blanks on the first line, an empty line, a numeral that is refused after a tab,
and an unknown character on the last line. -/
def fourLines : String := "x = // \"1.5\" \n\n\t1.5\n$"

theorem tokenize_lines_refused :
    let lines := fourLines.toList.splitOn '\n'
    let alone (line : List Char) := tokenize (String.ofList line) anonymous .integer true
    ∃ e : LexError, lines = ["x = // \"1.5\" ".toList, []] ++ "\t1.5".toList :: [['$']] ∧
      (∀ l ∈ ["x = // \"1.5\" ".toList, []], ∃ ts, alone l = .ok ts) ∧
      alone "\t1.5".toList = .error (.lexical e) ∧ e.pos = ⟨0, 1⟩ ∧
      tokenize fourLines anonymous .integer true =
        .error (.lexical { e with pos := ⟨2, 1⟩ }) := by
  intro lines alone
  have hlines : lines = ["x = // \"1.5\" ".toList, []] ++ "\t1.5".toList :: [['$']] := by
    decide +kernel
  have hline : alone "\t1.5".toList = .error (.lexical
      ⟨.invalidNumber "1.5" (ConversionError.notInteger "1.5").message, ⟨0, 1⟩, anonymous⟩) := by
    decide +kernel
  have hbefore : ∀ l ∈ ["x = // \"1.5\" ".toList, []], ∃ ts, alone l = .ok ts := by
    have hok : ∀ l ∈ ["x = // \"1.5\" ".toList, []], (alone l).isOk = true := by decide +kernel
    intro l hl
    have hl := hok l hl
    cases h : alone l with
    | error f =>
      rw [h] at hl
      cases hl
    | ok ts => exact ⟨ts, rfl⟩
  refine ⟨_, hlines, hbefore, hline, rfl, ?_⟩
  exact (tokenize_lines fourLines anonymous .integer).2.2 _ _ _ _ hlines hbefore hline

end ExprFront
