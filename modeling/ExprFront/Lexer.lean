import ExprFront.Cursor

/-!
# Scanning at an offset

A lexer keeps its whole source and an offset into it.  `scanAt` matches every rule at the
offset: it follows indices into the source, and the text of a token is a slice between two
of them.

* `endOfRun` is the loop over characters of one sort, and `commentEnd?`, `numeralEnd?`
  and `symbolEnd?` are the rules that say where a fragment ends.
* `scanToken` is the scanner without a state: one token from the front of a text.
* `Lexer` is a source with an offset.  It can be asked what a `Cursor` can be asked.

A scan at an offset is a scan of what lies behind the offset (`scanAt_eq`).  From this
follows that any token but the end of input moves the offset, so that scanning ends.
-/

namespace ExprFront

/-! ## Rules that end at an index -/

/-- The index behind the characters from `i` on that the property holds of. -/
def endOfRun (p : Char → Bool) (source : Array Char) (i : Nat) : Nat :=
  if h : i < source.size then
    if p source[i] then endOfRun p source (i + 1) else i
  else i
termination_by source.size - i

/-- The characters from one index up to another one. -/
def slice (source : Array Char) (i j : Nat) : List Char := (source.extract i j).toList

/-- The index behind the gap that begins at `i`, and the position there.  Where there is no
gap, both stay as they are. -/
def pastGap (source : Array Char) (i : Nat) (pos : Position) : Nat × Position :=
  let e := endOfRun isGap source i
  if i < e then (e, pos.advance (slice source i e)) else (i, pos)

/-- Where the comment ends that begins at `i`. -/
def commentEnd? (source : Array Char) (i : Nat) : Option Nat :=
  if source[i]? = some '/' ∧ source[i + 1]? = some '/' then
    some (endOfRun (· ≠ '\n') source (i + 2))
  else none

/-- Where the fraction ends that begins with a point at `i`.  It ends at `i` if there is no
point, or no digit behind it. -/
def fractionEnd (source : Array Char) (i : Nat) : Nat :=
  let digitsEnd := endOfRun Char.isDigit source (i + 1)
  if source[i]? = some '.' ∧ i + 1 < digitsEnd then digitsEnd else i

/-- Where the numeral ends that begins at `i`. -/
def numeralEnd? (source : Array Char) (i : Nat) : Option Nat :=
  let first := if source[i]? = some '-' then i + 1 else i
  let digitsEnd := endOfRun Char.isDigit source first
  if first < digitsEnd then some (fractionEnd source digitsEnd) else none

/-- The particle that begins at `i` and where it ends, for the first of the lengths that
gives one.  A slice at the end of the source may be too short. -/
def symbolEnd? (source : Array Char) (i : Nat) : (lengths : List Nat) → Option (Particle × Nat)
  | [] => none
  | n :: lengths =>
    let text := slice source i (i + n)
    match if text.length = n then Particle.ofSymbol? (String.ofList text) else none with
    | some p => some (p, i + n)
    | none => symbolEnd? source i lengths

/-- The token of `source` that begins at `start`, where the position is `pos`, with the
offset behind it and the position there. -/
def tokenAt (convert : Converter) (filename : String) (source : Array Char) (start : Nat)
    (pos : Position) (h : start < source.size) : Except Failure (Token × Nat × Position) :=
  let char := source[start]
  let token (lexeme : Lexeme) (e : Nat) : Token × Nat × Position :=
    (⟨lexeme, pos, String.ofList (slice source start e)⟩, e, pos.advance (slice source start e))
  if char = '\n' then .ok (token .skip (start + 1))
  else
    match commentEnd? source start with
    | some e => .ok (token .skip e)
    | none =>
      match numeralEnd? source start with
      | some e =>
        let text := String.ofList (slice source start e)
        match convert text with
        | .error x => .error (numeralFailure filename text pos x)
        | .ok v => .ok (token (.number v) e)
      | none =>
        if isNameStart char then
          let e := endOfRun isNameRest source (start + 1)
          .ok (token (.name (String.ofList (slice source start e))) e)
        else
          match symbolEnd? source start [2, 1] with
          | some (p, e) => .ok (token (.particle p) e)
          | none => .error (.lexical ⟨.unrecognized (String.ofList [char]), pos, filename⟩)

/-- Reads one token of `source` from `offset` on, where the position is `prev`.  The answer
is the token, the offset behind it and the position there. -/
def scanAt (convert : Converter) (filename : String) (source : Array Char) (offset : Nat)
    (prev : Position) : Except Failure (Token × Nat × Position) :=
  let (start, pos) := pastGap source offset prev
  if h : start < source.size then tokenAt convert filename source start pos h
  else .ok (⟨.endOfInput, prev, ""⟩, offset, prev)

/-- Reads one token from the front of `code`, which begins at `pos`.  The answer is the
token, the text left after it and the position there. -/
def scanToken (convert : Converter) (code : Array Char) (pos : Position) :
    Except Failure (Token × Array Char × Position) :=
  match scanAt convert anonymous code 0 pos with
  | .error e => .error e
  | .ok (t, e, next) => .ok (t, code.extract e, next)

/-! ## A scan at an offset is a scan of the rest -/

section Ends

variable {source : Array Char} {i : Nat}

theorem drop_eq_cons (h : i < source.size) :
    source.toList.drop i = source[i] :: source.toList.drop (i + 1) := by
  rw [List.drop_eq_getElem_cons (by simpa using h)]
  simp

theorem drop_eq_nil (h : ¬ i < source.size) : source.toList.drop i = [] := by
  rw [List.drop_eq_nil_iff, Array.length_toList]
  omega

theorem head?_drop : (source.toList.drop i).head? = source[i]? := by
  simp [List.head?_drop]

/-- What lies behind `i` decides about the character at `i`. -/
theorem getElem?_eq_some_iff_drop {c : Char} :
    source[i]? = some c ↔ source.toList.drop i = c :: source.toList.drop (i + 1) := by
  rw [← head?_drop, List.head?_eq_some_iff]
  constructor
  · rintro ⟨rest, hrest⟩
    rw [hrest, ← List.drop_drop, hrest]
    rfl
  · exact fun h => ⟨_, h⟩

theorem slice_append {text after : List Char} (h : source.toList.drop i = text ++ after) :
    slice source i (i + text.length) = text := by
  simp [slice, h]

variable (source i)

/-- The loop stops behind the characters that a scan of the rest takes. -/
theorem endOfRun_eq (p : Char → Bool) :
    endOfRun p source i = i + ((source.toList.drop i).takeWhile p).length := by
  fun_induction endOfRun p source i with
  | case1 i h hp ih =>
    rw [drop_eq_cons h, List.takeWhile_cons_of_pos hp, List.length_cons, ih]
    omega
  | case2 i h hp =>
    rw [drop_eq_cons h, List.takeWhile_cons_of_neg hp]
    rfl
  | case3 i h =>
    rw [drop_eq_nil h]
    rfl

theorem drop_endOfRun (p : Char → Bool) :
    source.toList.drop (endOfRun p source i) = (source.toList.drop i).dropWhile p := by
  rw [endOfRun_eq, ← List.drop_drop]
  generalize source.toList.drop i = cs
  have hleft := @List.drop_left _ (cs.takeWhile p) (cs.dropWhile p)
  rwa [List.takeWhile_append_dropWhile] at hleft

/-- Digits and a fraction end behind what a scan of the rest takes. -/
theorem fractionEnd_eq :
    fractionEnd source (endOfRun Char.isDigit source i) =
      i + (Fragment.unsigned (source.toList.drop i)).length := by
  rw [Fragment.unsigned, List.length_append, ← Nat.add_assoc, ← endOfRun_eq, ← drop_endOfRun]
  generalize endOfRun Char.isDigit source i = i
  simp only [fractionEnd, getElem?_eq_some_iff_drop, endOfRun_eq]
  split
  · next h =>
    obtain ⟨hpoint, hdigits⟩ := h
    have hne : ((source.toList.drop (i + 1)).takeWhile Char.isDigit).isEmpty = false := by
      rw [List.isEmpty_eq_false_iff, ← List.length_pos_iff]
      omega
    rw [hpoint]
    simp only [hne, Bool.false_eq_true, if_false, List.length_cons]
    omega
  · next h =>
    split
    · next rest hrest =>
      have hrest' : source.toList.drop (i + 1) = rest := by
        rw [← List.drop_drop, hrest]
        rfl
      have hempty : (rest.takeWhile Char.isDigit).isEmpty = true := by
        rw [List.isEmpty_iff, ← List.length_eq_zero_iff]
        refine Nat.eq_zero_of_not_pos fun hpos => h ⟨by rw [hrest, hrest'], ?_⟩
        rw [hrest']
        omega
      simp [hempty]
    · rfl

theorem numeralEnd?_eq :
    numeralEnd? source i =
      if (Fragment.numeral (source.toList.drop i)).isEmpty then none
      else some (i + (Fragment.numeral (source.toList.drop i)).length) := by
  have hdigits : ∀ j, j < endOfRun Char.isDigit source j ↔
      ((source.toList.drop j).takeWhile Char.isDigit).isEmpty = false := by
    intro j
    rw [endOfRun_eq, List.isEmpty_eq_false_iff, ← List.length_pos_iff]
    omega
  unfold numeralEnd?
  simp only [hdigits, fractionEnd_eq]
  split
  · next hminus =>
    rw [getElem?_eq_some_iff_drop.1 hminus, Fragment.numeral]
    cases h : ((source.toList.drop (i + 1)).takeWhile Char.isDigit).isEmpty with
    | true => rfl
    | false =>
      simp only [Bool.false_eq_true, if_true, if_false, List.isEmpty_cons, List.length_cons]
      congr 1
      omega
  · next hminus =>
    rw [Fragment.numeral]
    · cases h : ((source.toList.drop i).takeWhile Char.isDigit).isEmpty with
      | true => rfl
      | false =>
        have hne : (Fragment.unsigned (source.toList.drop i)).isEmpty = false := by
          rw [List.isEmpty_eq_false_iff] at h ⊢
          exact List.append_ne_nil_of_left_ne_nil h _
        simp only [hne, Bool.false_eq_true, if_true, if_false]
    · intro rest hrest
      refine hminus ?_
      rw [← head?_drop, hrest]
      rfl

/-- The first of the two lengths is tried before the second. -/
theorem symbolEnd?_eq :
    symbolEnd? source i [2, 1] =
      (Fragment.particle? (source.toList.drop i)).map fun (p, text) => (p, i + text.length) := by
  have hslice : ∀ n, slice source i (i + n) = (source.toList.drop i).take n := by
    intro n
    simp [slice]
  simp only [symbolEnd?, hslice]
  match source.toList.drop i with
  | [] => rfl
  | [c] => cases h : Particle.one? c <;> simp [Particle.ofSymbol?, Fragment.particle?, h]
  | c :: d :: rest =>
    cases h₂ : Particle.two? c d <;> cases h₁ : Particle.one? c <;>
      simp [Particle.ofSymbol?, Fragment.particle?, h₁, h₂]

variable {source i}

/-- A fragment at the front of the rest is the slice of its length. -/
theorem slice_of_take? {shape : Shape} {text : List Char}
    (h : Fragment.take? (source.toList.drop i) = some (shape, text)) :
    slice source i (i + text.length) = text := by
  obtain ⟨after, hafter⟩ := (Fragment.take?_isPrefixOf h).2
  exact slice_append hafter.symm

theorem take?_of_newline (h : i < source.size) (hline : source[i] = '\n') :
    Fragment.take? (source.toList.drop i) = some (.lineBreak, ['\n']) := by
  rw [drop_eq_cons h, hline]
  rfl

theorem skipped?_of_commentEnd? {e : Nat} (hcomment : commentEnd? source i = some e) :
    ∃ text, Fragment.skipped? (source.toList.drop i) = some (.comment, text) ∧
      e = i + text.length := by
  unfold commentEnd? at hcomment
  split at hcomment
  · next h =>
    obtain ⟨hfirst, hsecond⟩ := h
    rw [getElem?_eq_some_iff_drop] at hfirst hsecond
    cases hcomment
    rw [hfirst, hsecond]
    refine ⟨_, rfl, ?_⟩
    rw [endOfRun_eq, List.length_cons, List.length_cons, Nat.add_assoc i 1 1]
    omega
  · cases hcomment

theorem skipped?_eq_none_of_commentEnd? (h : i < source.size) (hline : source[i] ≠ '\n')
    (hcomment : commentEnd? source i = none) :
    Fragment.skipped? (source.toList.drop i) = none := by
  unfold Fragment.skipped?
  split
  · next hrest =>
    rw [drop_eq_cons h] at hrest
    exact absurd (List.cons.inj hrest).1 hline
  · next rest hrest =>
    have hfirst : source[i]? = some '/' := by
      rw [← head?_drop, hrest]
      rfl
    have hsecond : source[i + 1]? = some '/' := by
      rw [← head?_drop, ← List.drop_drop, hrest]
      rfl
    rw [commentEnd?, if_pos ⟨hfirst, hsecond⟩] at hcomment
    cases hcomment
  · rfl

theorem word_of_isNameStart (h : i < source.size) (hname : isNameStart source[i] = true) :
    Fragment.word (source.toList.drop i) =
      source[i] :: (source.toList.drop (i + 1)).takeWhile isNameRest := by
  rw [drop_eq_cons h, Fragment.word, if_pos hname]

theorem word_of_not_isNameStart (h : i < source.size) (hname : ¬ isNameStart source[i] = true) :
    Fragment.word (source.toList.drop i) = [] := by
  rw [drop_eq_cons h, Fragment.word, if_neg hname]

end Ends

section Scan

variable (convert : Converter) (filename : String) (source : Array Char)

/-- The token at an index is made of the fragment at the front of the rest. -/
theorem tokenAt_eq {i : Nat} (pos : Position) (h : i < source.size) :
    tokenAt convert filename source i pos h =
      match Fragment.take? (source.toList.drop i) with
      | none => .error (.lexical ⟨.unrecognized (String.ofList [source[i]]), pos, filename⟩)
      | some (shape, text) =>
        match shape.lexeme convert (String.ofList text) with
        | .error e => .error (numeralFailure filename (String.ofList text) pos e)
        | .ok lexeme =>
          .ok (⟨lexeme, pos, String.ofList text⟩, i + text.length, pos.advance text) := by
  unfold tokenAt
  by_cases hline : source[i] = '\n'
  · have htake := take?_of_newline h hline
    have hslice : slice source i (i + 1) = ['\n'] := slice_of_take? htake
    simp only [hline, if_true, htake, hslice, Shape.lexeme]
    rfl
  simp only [hline, if_false]
  cases hcomment : commentEnd? source i with
  | some e =>
    obtain ⟨text, hskip, rfl⟩ := skipped?_of_commentEnd? hcomment
    have htake : Fragment.take? (source.toList.drop i) = some (.comment, text) := by
      rw [Fragment.take?, hskip]
    simp only [htake, slice_of_take? htake, Shape.lexeme]
  | none =>
    have hskip := skipped?_eq_none_of_commentEnd? h hline hcomment
    rw [numeralEnd?_eq]
    by_cases hnumeral : Fragment.numeral (source.toList.drop i) = []
    · simp only [hnumeral, List.isEmpty_nil, if_true]
      by_cases hname : isNameStart source[i] = true
      · have hword := word_of_isNameStart h hname
        have htake : Fragment.take? (source.toList.drop i) =
            some (.word, source[i] :: (source.toList.drop (i + 1)).takeWhile isNameRest) := by
          rw [Fragment.take?_of_word hskip hnumeral (by simp [hword]), hword]
        have hend : i + (source[i] :: (source.toList.drop (i + 1)).takeWhile isNameRest).length =
            endOfRun isNameRest source (i + 1) := by
          rw [endOfRun_eq, List.length_cons]
          omega
        have hslice := slice_of_take? htake
        rw [hend] at hslice
        simp only [hname, htake, hslice, Shape.lexeme, hend, if_true]
      · have htake := Fragment.take?_of_particle hskip hnumeral (word_of_not_isNameStart h hname)
        simp only [hname, symbolEnd?_eq]
        cases hparticle : Fragment.particle? (source.toList.drop i) with
        | none =>
          rw [hparticle] at htake
          simp [htake]
        | some found =>
          rw [hparticle] at htake
          have hslice := slice_of_take? htake
          simp [htake, hslice, Shape.lexeme]
    · have htake := Fragment.take?_of_numeral hskip hnumeral
      rw [if_neg (by simpa using hnumeral)]
      simp only [htake, slice_of_take? htake, Shape.lexeme]
      cases convert (String.ofList (Fragment.numeral (source.toList.drop i))) with
      | error x => rfl
      | ok v => rfl

theorem pastGap_eq (offset : Nat) (prev : Position) :
    pastGap source offset prev =
      (endOfRun isGap source offset,
        prev.advance ((source.toList.drop offset).takeWhile isGap)) := by
  have hend := endOfRun_eq source offset isGap
  have hslice : slice source offset (endOfRun isGap source offset) =
      (source.toList.drop offset).takeWhile isGap := by
    rw [hend]
    exact slice_append List.takeWhile_append_dropWhile.symm
  simp only [pastGap]
  split
  · rw [hslice]
  · next hlt =>
    have hnil : (source.toList.drop offset).takeWhile isGap = [] :=
      List.length_eq_zero_iff.1 (by omega)
    rw [hend, hnil]
    simp [Position.advance]

/-- The answer of a scan at an offset, from that of a scan of the rest. -/
def Scan.shifted (offset : Nat) (s : Scan) : Token × Nat × Position :=
  (s.token, offset + s.width, s.next)

/-- A scan at an offset is a scan of what lies behind the offset, shifted by it. -/
theorem scanAt_eq (offset : Nat) (prev : Position) :
    scanAt convert filename source offset prev =
      (scan convert filename (source.toList.drop offset) prev).map (Scan.shifted offset) := by
  have hdrop := drop_endOfRun source offset isGap
  simp only [scanAt, pastGap_eq, scan]
  split
  · next h =>
    rw [tokenAt_eq, ← hdrop]
    rw [drop_eq_cons h]
    simp only
    cases Fragment.take? (source[endOfRun isGap source offset] ::
        source.toList.drop (endOfRun isGap source offset + 1)) with
    | none => rfl
    | some found =>
      obtain ⟨shape, text⟩ := found
      simp only
      cases shape.lexeme convert (String.ofList text) with
      | error e => rfl
      | ok lexeme => simp only [Except.map, Scan.shifted, endOfRun_eq, Nat.add_assoc]
  · next h =>
    rw [drop_eq_nil h] at hdrop
    rw [← hdrop]
    rfl

end Scan

/-! ## Lexers -/

/-- A source and an offset into it. -/
structure Lexer where
  source : Array Char
  offset : Nat
  pos : Position
  filename : String
  convert : Converter

namespace Lexer

/-- A lexer at the start of a source. -/
def start (source filename : String) (convert : Converter) : Lexer :=
  ⟨source.toList.toArray, 0, .origin, filename, convert⟩

/-- The next token, skipped ones included, and the lexer after it. -/
def next (l : Lexer) : Except Failure (Token × Lexer) :=
  match scanAt l.convert l.filename l.source l.offset l.pos with
  | .error e => .error e
  | .ok (t, e, pos) => .ok (t, { l with offset := e, pos := pos })

/-- A token other than the end of input leaves less of the source. -/
theorem next_offset_lt {l l' : Lexer} {t : Token} (h : l.next = .ok (t, l'))
    (ht : t.isEnd = false) : l'.source.size - l'.offset < l.source.size - l.offset := by
  simp only [next, scanAt_eq] at h
  cases hscan : scan l.convert l.filename (l.source.toList.drop l.offset) l.pos with
  | error e =>
    rw [hscan] at h
    cases h
  | ok s =>
    rw [hscan] at h
    cases h
    have hpos := scan_width_pos hscan ht
    have hle := scan_width_le hscan
    rw [List.length_drop, Array.length_toList] at hle
    simp only
    omega

/-- All tokens up to and including the end of input.  Skipped ones are listed on
demand. -/
def tokens (includeSkips : Bool) (l : Lexer) : Outcome Lexer (List Token) :=
  match _h : l.next with
  | .error e => .error e l
  | .ok (t, l') =>
    if _hs : t.isSkip && !includeSkips then tokens includeSkips l'
    else if _he : t.isEnd then .ok [t] l'
    else
      match tokens includeSkips l' with
      | .error e l'' => .error e l''
      | .ok ts l'' => .ok (t :: ts) l''
termination_by l.source.size - l.offset
decreasing_by
  · exact next_offset_lt _h (Cursor.isEnd_of_isSkip (Bool.and_eq_true_iff.1 _hs).1)
  · exact next_offset_lt _h (by simpa using _he)

/-- The lexer with more text at the end of its source. -/
def append (l : Lexer) (text : String) : Lexer :=
  { l with source := l.source ++ text.toList.toArray }

/-- One step. -/
def step (l : Lexer) : Cursor.Step → Outcome Lexer Cursor.Answer
  | .scan =>
    match l.next with
    | .error e => .error e l
    | .ok (t, l') => .ok (.token t) l'
  | .tokenize includeSkips =>
    match l.tokens includeSkips with
    | .error e l' => .error e l'
    | .ok ts l' => .ok (.tokens ts) l'
  | .append text => .ok .done (l.append text)

end Lexer

end ExprFront
