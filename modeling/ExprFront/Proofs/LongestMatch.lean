import ExprFront.Proofs.Layout

/-!
# The longest lexeme is taken

The scanner tries its rules one after the other and takes the first fragment that one of them
finds.  This module shows that the order of the rules hides nothing: the fragment is the longest
lexeme at the front of the text, whatever its class.

* `Shape.Spells` gives the texts of each class, without the scanner.  No text is in two classes
  (`Shape.Spells.unique`).
* What is taken is in its class (`Fragment.spells_of_take?`), and no lexeme at the front is longer
  (`Fragment.take?_of_front`).  Classes that overlap at the front are told apart there: a minus sign
  and a negative numeral, a slash and a comment, symbols of one and of two characters, a numeral
  before a point, a range sign or a fraction.

Main result: `scan_longest`.
-/

namespace ExprFront

/-! ## Classes of lexemes -/

/-- The texts of a class. -/
def Shape.Spells : Shape → List Char → Prop
  | .lineBreak, cs => cs = ['\n']
  | .comment, cs => ∃ body, cs = '/' :: '/' :: body ∧ '\n' ∉ body
  | .numeral, cs => IsNumeral cs
  | .word, cs => IsName cs
  | .particle p, cs => cs = p.symbol.toList

/-- The text `u` is a lexeme at the front of `cs`. -/
structure LexemeFront (u cs : List Char) : Prop where
  ne_nil : u ≠ []
  front : u <+: cs
  lexeme : ∃ s : Shape, s.Spells u

/-- The text `u` is the longest lexeme at the front of `cs`. -/
structure LongestFront (u cs : List Char) : Prop extends LexemeFront u cs where
  longest : ∀ v, LexemeFront v cs → v.length ≤ u.length

/-- A symbol is one that is recognised by one character or by two. -/
theorem Particle.symbol_cases (p : Particle) :
    (∃ c, p.symbol.toList = [c] ∧ Particle.one? c = some p) ∨
      ∃ c d, p.symbol.toList = [c, d] ∧ Particle.two? c d = some p := by
  cases p with
  | range | lessEqual | greaterEqual | equal | notEqual | logicalAnd | logicalOr =>
    exact .inr ⟨_, _, rfl, rfl⟩
  | _ => exact .inl ⟨_, rfl, rfl⟩

namespace Fragment

/-! ## What is taken is a lexeme -/

/-- What is passed over is a line break or a comment. -/
theorem spells_of_skipped? {cs text : List Char} {s : Shape} (h : skipped? cs = some (s, text)) :
    s.Spells text := by
  unfold skipped? at h
  split at h
  · cases h
    rfl
  · next rest _ =>
    cases h
    refine ⟨_, rfl, fun hmem => ?_⟩
    have hne := List.mem_takeWhile_imp hmem
    simp at hne
  · cases h

/-- The fragment that is taken is in the class that it is given. -/
theorem spells_of_take? {cs text : List Char} {s : Shape} (h : take? cs = some (s, text)) :
    s.Spells text := by
  unfold take? at h
  split at h
  · next found hs =>
    cases h
    exact spells_of_skipped? hs
  · split at h
    · next hn =>
      cases h
      exact isNumeral_numeral (by simpa using hn)
    · split at h
      · next hw =>
        cases h
        exact isName_word (by simpa using hw)
      · obtain ⟨⟨p, t⟩, hp, he⟩ := Option.map_eq_some_iff.1 h
        cases he
        exact symbol_of_particle? hp

/-! ## Lexemes at the front -/

/-- A numeral at the front is not longer than the one that is taken. -/
theorem length_le_numeral {text : List Char} (after : List Char) (h : IsNumeral text) :
    text.length ≤ (numeral (text ++ after)).length := by
  obtain ⟨sign, whole, fraction, rfl, hs, hw, hf⟩ := h
  rw [List.append_assoc, List.append_assoc, numeral_digits hs hw]
  rcases hf with rfl | ⟨digits, rfl, hd⟩
  · simp only [List.length_append, List.length_nil]
    omega
  · rw [List.cons_append, unsigned_point hd]
    simp only [List.length_append, List.length_cons]
    omega

/-- A numeral at the front is taken, or a longer one. -/
theorem take?_numeral_front {text : List Char} (after : List Char) (h : IsNumeral text) :
    ∃ u, take? (text ++ after) = some (.numeral, u) ∧ text.length ≤ u.length :=
  ⟨_, take?_eq_numeral h after, length_le_numeral after h⟩

/-- A numeral without a point is taken exactly where nothing that belongs to it follows. -/
theorem take?_integral_iff {text : List Char} (ht : IsNumeral text) (hpoint : '.' ∉ text)
    (after : List Char) :
    take? (text ++ after) = some (.numeral, text) ↔ unsigned after = [] := by
  rw [take?_eq_numeral ht]
  obtain ⟨sign, whole, fraction, rfl, hs, hw, hf⟩ := ht
  have hfraction : fraction = [] := by
    refine hf.resolve_right ?_
    rintro ⟨digits, rfl, -⟩
    exact hpoint (by simp)
  subst hfraction
  rw [List.append_nil, List.append_assoc, numeral_digits hs hw, ← List.append_assoc]
  simp

/-- A name at the front is taken, or a longer one. -/
theorem take?_name_front {text : List Char} (after : List Char) (h : IsName text) :
    ∃ u, take? (text ++ after) = some (.word, u) ∧ text.length ≤ u.length := by
  obtain ⟨c, r, rfl, hc, hall⟩ := h
  have hskip : skipped? (c :: r ++ after) = none := by
    apply skipped?_eq_none
    · rintro rfl
      exact absurd hc (by decide)
    · rintro rfl
      exact absurd hc (by decide)
  have hdigit : c.isDigit = false := by
    cases hd : c.isDigit with
    | false => rfl
    | true =>
      rw [isNameStart_of_isDigit hd] at hc
      exact absurd hc (by decide)
  have hnumeral : numeral (c :: (r ++ after)) = [] := by
    rw [numeral]
    · simp [hdigit]
    · intro r' he
      rw [(List.cons.inj he).1] at hc
      exact absurd hc (by decide)
  refine ⟨c :: (r ++ after).takeWhile isNameRest, ?_, ?_⟩
  · rw [take?, hskip]
    simp [hnumeral, word, hc]
  · rw [List.takeWhile_append_of_pos hall]
    simp

/-- A symbol of one character at the front leads to some fragment. -/
theorem exists_take?_of_one? {c : Char} {p : Particle} (h : Particle.one? c = some p)
    (after : List Char) : ∃ s u, take? (c :: after) = some (s, u) := by
  unfold take?
  split
  · next found _ => exact ⟨found.1, found.2, rfl⟩
  · split
    · exact ⟨_, _, rfl⟩
    · split
      · exact ⟨_, _, rfl⟩
      · cases after with
        | nil => exact ⟨_, _, by rw [particle?, h]; rfl⟩
        | cons d rest =>
          rw [particle?]
          split
          · exact ⟨_, _, rfl⟩
          · exact ⟨_, _, by rw [h]; rfl⟩

/-- A symbol of two characters at the front is taken. -/
theorem take?_of_two? {c d : Char} {p : Particle} (h : Particle.two? c d = some p)
    (after : List Char) : take? (c :: d :: after) = some (.particle p, [c, d]) := by
  unfold Particle.two? at h
  split at h <;> cases h <;> rfl

/-- Where a lexeme stands at the front, a fragment is taken that is at least as long. -/
theorem take?_of_front {u cs : List Char} (h : LexemeFront u cs) :
    ∃ s text, take? cs = some (s, text) ∧ u.length ≤ text.length := by
  obtain ⟨-, ⟨after, rfl⟩, s, hs⟩ := h
  cases s with
  | lineBreak =>
    cases hs
    exact ⟨_, _, rfl, Nat.le_refl _⟩
  | comment =>
    obtain ⟨body, rfl, hbody⟩ := hs
    have hall : ∀ c ∈ body, decide (c ≠ '\n') = true := by
      intro c hc
      rw [decide_eq_true_eq]
      rintro rfl
      exact hbody hc
    refine ⟨_, _, rfl, ?_⟩
    rw [List.append_eq, List.takeWhile_append_of_pos hall]
    simp
  | numeral =>
    obtain ⟨text, ht, hle⟩ := take?_numeral_front after hs
    exact ⟨_, text, ht, hle⟩
  | word =>
    obtain ⟨text, ht, hle⟩ := take?_name_front after hs
    exact ⟨_, text, ht, hle⟩
  | particle p =>
    obtain rfl : u = p.symbol.toList := hs
    rcases p.symbol_cases with ⟨c, hc, hp⟩ | ⟨c, d, hcd, hp⟩
    · rw [hc, List.singleton_append]
      obtain ⟨s, text, ht⟩ := exists_take?_of_one? hp after
      exact ⟨s, text, ht, List.length_pos_iff.2 (take?_isPrefixOf ht).1⟩
    · rw [hcd]
      exact ⟨_, _, take?_of_two? hp after, Nat.le_refl _⟩

/-- A lexeme that is all there is is taken in its class. -/
theorem take?_of_spells {s : Shape} {u : List Char} (h : s.Spells u) : take? u = some (s, u) := by
  have hnil : Boundary [] := nofun
  cases s with
  | lineBreak =>
    cases h
    rfl
  | comment =>
    obtain ⟨body, rfl, hbody⟩ := h
    have hall : body.takeWhile (· ≠ '\n') = body := by
      rw [List.takeWhile_eq_self_iff]
      intro c hc
      rw [decide_eq_true_eq]
      rintro rfl
      exact hbody hc
    show some (Shape.comment, '/' :: '/' :: body.takeWhile (· ≠ '\n')) = _
    rw [hall]
  | numeral => simpa using take?_numeral h hnil
  | word => simpa using take?_name h hnil
  | particle p =>
    cases h
    simpa using take?_symbol p hnil

end Fragment

/-- No text is in two classes. -/
theorem Shape.Spells.unique {s s' : Shape} {u : List Char} (h : s.Spells u) (h' : s'.Spells u) :
    s = s' := by
  have hsame := (Fragment.take?_of_spells h).symm.trans (Fragment.take?_of_spells h')
  cases hsame
  rfl

/-- The fragment that is taken is the longest lexeme at the front. -/
theorem Fragment.longestFront_of_take? {cs text : List Char} {s : Shape}
    (h : take? cs = some (s, text)) : LongestFront text cs where
  ne_nil := (take?_isPrefixOf h).1
  front := (take?_isPrefixOf h).2
  lexeme := ⟨s, spells_of_take? h⟩
  longest v hv := by
    obtain ⟨s', text', ht, hle⟩ := take?_of_front hv
    rw [h] at ht
    cases ht
    exact hle

/-- No fragment is taken exactly where no lexeme stands at the front. -/
theorem Fragment.take?_eq_none_iff {cs : List Char} :
    take? cs = none ↔ ¬ ∃ u, LexemeFront u cs := by
  constructor
  · rintro hnone ⟨u, hu⟩
    obtain ⟨s, text, ht, -⟩ := take?_of_front hu
    rw [hnone] at ht
    cases ht
  · intro hno
    cases h : take? cs with
    | none => rfl
    | some found => exact absurd ⟨_, (longestFront_of_take? h).toLexemeFront⟩ hno

/-! ## Scanning -/

/-- The verdict on a numeral that the converter refuses; only a breakdown is passed on. -/
theorem numeralFailure_cases (filename text : String) (pos : Position) (e : ConversionError) :
    (e.kind = .runtime ∧ numeralFailure filename text pos e = .breakdown e) ∨
      (e.kind ≠ .runtime ∧ ∃ x : LexFault,
        numeralFailure filename text pos e = .lexical ⟨x, pos, filename⟩ ∧
          x.code = if e.kind = .overflow then .L003 else .L002) := by
  unfold numeralFailure
  cases e.kind with
  | runtime => exact .inl ⟨rfl, rfl⟩
  | overflow => exact .inr ⟨nofun, _, rfl, rfl⟩
  | value | invalidOperation | zeroDivision | type => exact .inr ⟨nofun, _, rfl, rfl⟩

theorem numeralFailure_code_ne {filename text : String} {pos : Position} {e : ConversionError}
    {x : LexError} (h : numeralFailure filename text pos e = .lexical x) :
    x.fault.code ≠ .L001 := by
  rcases numeralFailure_cases filename text pos e with ⟨-, hf⟩ | ⟨-, y, hf, hy⟩
  · cases hf.symm.trans h
  · cases hf.symm.trans h
    rw [hy]
    split
    · decide
    · decide

/-- What stands in a token for the text of each class. -/
theorem Shape.lexeme_ok {convert : Converter} {text : String} {shape : Shape} {l : Lexeme}
    (h : shape.lexeme convert text = .ok l) :
    (shape = .lineBreak ∨ shape = .comment → l = .skip) ∧
    (shape = .numeral → ∃ v, convert text = .ok v ∧ l = .number v) ∧
    (shape = .word → l = .name text) ∧ ∀ p, shape = .particle p → l = .particle p := by
  cases shape with
  | lineBreak | comment | word | particle p =>
    cases h
    simp
  | numeral =>
    obtain ⟨v, hv, rfl⟩ := exists_of_lexeme_numeral h
    simp [hv]

section Outcomes

variable (convert : Converter) (filename : String) (pos : Position) {code bad : List Char}
  {x : Char}

theorem scan_of_take?_none (h : code.dropWhile isGap = x :: bad)
    (ht : Fragment.take? (x :: bad) = none) :
    scan convert filename code pos = .error (.lexical ⟨.unrecognized (String.ofList [x]),
      pos.advance (code.takeWhile isGap), filename⟩) := by
  unfold scan
  simp only [h, ht]

/-- A fragment that is taken becomes a token, unless it is a numeral that the converter does not
accept. -/
theorem scan_of_take?_some {shape : Shape} {text : List Char}
    (h : code.dropWhile isGap = x :: bad) (ht : Fragment.take? (x :: bad) = some (shape, text)) :
    (∃ l s, shape.lexeme convert (String.ofList text) = .ok l ∧
      scan convert filename code pos = .ok s ∧
      s.token = ⟨l, pos.advance (code.takeWhile isGap), String.ofList text⟩ ∧
      code = code.takeWhile isGap ++ text ++ code.drop s.width ∧
      s.next = (pos.advance (code.takeWhile isGap)).advance text) ∨
    ∃ e, shape = .numeral ∧ convert (String.ofList text) = .error e ∧
      scan convert filename code pos = .error (numeralFailure filename (String.ofList text)
        (pos.advance (code.takeWhile isGap)) e) := by
  cases hl : shape.lexeme convert (String.ofList text) with
  | ok l =>
    have hresult : scan convert filename code pos =
        .ok ⟨⟨l, pos.advance (code.takeWhile isGap), String.ofList text⟩,
          (code.takeWhile isGap).length + text.length,
          (pos.advance (code.takeWhile isGap)).advance text⟩ := by
      unfold scan
      simp only [h, ht, hl]
    refine .inl ⟨l, _, rfl, hresult, rfl, ?_, rfl⟩
    obtain ⟨after, hafter⟩ := (Fragment.take?_isPrefixOf ht).2
    have hsplit : code.takeWhile isGap ++ text ++ after = code := by
      rw [List.append_assoc, hafter, ← h, List.takeWhile_append_dropWhile]
    have hdrop := @List.drop_left _ (code.takeWhile isGap ++ text) after
    rw [hsplit, List.length_append] at hdrop
    rw [hdrop, hsplit]
  | error e =>
    obtain ⟨rfl, he⟩ := Shape.lexeme_error hl
    refine .inr ⟨e, rfl, he, ?_⟩
    unfold scan
    simp only [h, ht, hl]

end Outcomes

/-- What the converter makes of a numeral decides the scan. -/
theorem scan_of_take?_numeral (convert : Converter) {code text : List Char}
    (htake : Fragment.take? (code.dropWhile isGap) = some (.numeral, text)) (filename : String)
    (pos : Position) :
    match convert (String.ofList text) with
    | .ok v => ∃ s, scan convert filename code pos = .ok s ∧
        s.token = ⟨.number v, pos.advance (code.takeWhile isGap), String.ofList text⟩
    | .error e => scan convert filename code pos = .error
        (numeralFailure filename (String.ofList text) (pos.advance (code.takeWhile isGap)) e) := by
  cases hcode : code.dropWhile isGap with
  | nil =>
    rw [hcode] at htake
    cases htake
  | cons c rest =>
    rw [hcode] at htake
    rcases scan_of_take?_some convert filename pos hcode htake with
      ⟨l, s, hl, hscan, htoken, -⟩ | ⟨e, -, hconvert, hscan⟩
    · cases hconvert : convert (String.ofList text) with
      | ok v =>
        rw [Shape.lexeme, hconvert] at hl
        cases hl
        exact ⟨s, hscan, htoken⟩
      | error e =>
        rw [Shape.lexeme, hconvert] at hl
        cases hl
    · rw [hconvert]
      exact hscan

/-- Scanning takes the longest lexeme after the gap, in the only class that it belongs to.  A line
break or a comment is skipped, a numeral becomes the number that it is converted to, a name stands
for itself, and a symbol for its particle.  Scanning then fails only on a numeral that the
converter does not accept.  It fails with an unrecognized character exactly if no lexeme stands
there, and at the end of the text it takes nothing, not even the gap. -/
theorem scan_longest (convert : Converter) (filename : String) (code : List Char)
    (pos : Position) :
    let gap := code.takeWhile isGap
    let left := code.dropWhile isGap
    let start := pos.advance gap
    let result := scan convert filename code pos
    (left = [] → ∃ s, result = .ok s ∧ s.token = ⟨.endOfInput, pos, ""⟩ ∧
      code.drop s.width = code ∧ s.next = pos) ∧
    ((∃ u, LexemeFront u left) → ∃ shape text, LongestFront text left ∧ shape.Spells text ∧
      (∀ s : Shape, s.Spells text → s = shape) ∧
      ((∃ l s, result = .ok s ∧ s.token = ⟨l, start, String.ofList text⟩ ∧
          code = gap ++ text ++ code.drop s.width ∧ s.next = start.advance text ∧
          (shape = .lineBreak ∨ shape = .comment → l = .skip) ∧
          (shape = .numeral → ∃ v, convert (String.ofList text) = .ok v ∧ l = .number v) ∧
          (shape = .word → l = .name (String.ofList text)) ∧
          ∀ p, shape = .particle p → l = .particle p) ∨
        ∃ e, shape = .numeral ∧ convert (String.ofList text) = .error e ∧
          ((e.kind = .runtime ∧ result = .error (.breakdown e)) ∨
            (e.kind ≠ .runtime ∧ ∃ x : LexFault,
              result = .error (.lexical ⟨x, start, filename⟩) ∧
              x.code = if e.kind = .overflow then .L003 else .L002)))) ∧
    ((∃ e : LexError, result = .error (.lexical e) ∧ e.fault.code = .L001) ↔
      left ≠ [] ∧ ¬ ∃ u, LexemeFront u left) ∧
    ∀ x bad, left = x :: bad → (¬ ∃ u, LexemeFront u left) →
      result = .error (.lexical ⟨.unrecognized (String.ofList [x]), start, filename⟩) := by
  intro gap left start result
  cases hleft : left with
  | nil =>
    have hresult : result = .ok ⟨⟨.endOfInput, pos, ""⟩, 0, pos⟩ := by
      show scan convert filename code pos = _
      unfold scan
      simp only [show code.dropWhile isGap = [] from hleft]
    have hnone : ¬ ∃ u, LexemeFront u [] := by
      rintro ⟨u, hu⟩
      exact hu.ne_nil (List.prefix_nil.1 hu.front)
    refine ⟨fun _ => ⟨_, hresult, rfl, rfl, rfl⟩, fun h => absurd h hnone, ⟨?_, ?_⟩, nofun⟩
    · rintro ⟨e, he, -⟩
      rw [hresult] at he
      cases he
    · rintro ⟨hne, -⟩
      exact absurd rfl hne
  | cons x bad =>
    have hdrop : code.dropWhile isGap = x :: bad := hleft
    cases htake : Fragment.take? (x :: bad) with
    | none =>
      have hnone := Fragment.take?_eq_none_iff.1 htake
      have hresult := scan_of_take?_none convert filename pos hdrop htake
      refine ⟨nofun, fun h => absurd h hnone, ⟨fun _ => ⟨nofun, hnone⟩, fun _ => ?_⟩, ?_⟩
      · exact ⟨_, hresult, rfl⟩
      · intro y worse he _
        cases he
        exact hresult
    | some found =>
      obtain ⟨shape, text⟩ := found
      have hlongest := Fragment.longestFront_of_take? htake
      have hspells := Fragment.spells_of_take? htake
      have hsome : ∃ u, LexemeFront u (x :: bad) := ⟨text, hlongest.toLexemeFront⟩
      have houtcome := scan_of_take?_some convert filename pos hdrop htake
      refine ⟨nofun, fun _ => ⟨shape, text, hlongest, hspells, fun s hs => hs.unique hspells, ?_⟩,
        ⟨?_, fun h => absurd hsome h.2⟩, fun _ _ _ h => absurd hsome h⟩
      · rcases houtcome with ⟨l, s, hl, hs, htoken, hcode, hnext⟩ | ⟨e, hshape, he, hresult⟩
        · exact .inl ⟨l, s, hs, htoken, hcode, hnext, Shape.lexeme_ok hl⟩
        · refine .inr ⟨e, hshape, he, ?_⟩
          rcases numeralFailure_cases filename (String.ofList text) start e with
            ⟨hkind, hf⟩ | ⟨hkind, y, hf, hy⟩
          · exact .inl ⟨hkind, hresult.trans (congrArg _ hf)⟩
          · exact .inr ⟨hkind, y, hresult.trans (congrArg _ hf), hy⟩
      · rintro ⟨e, he, hcode⟩
        rcases houtcome with ⟨l, s, -, hresult, -⟩ | ⟨e', -, -, hresult⟩
        · cases hresult.symm.trans he
        · have hfailure := Except.error.inj (hresult.symm.trans he)
          exact absurd hcode (numeralFailure_code_ne hfailure)

/-- A tab, and a text that a minus sign, a negative numeral and points stand at the front of. -/
def pointedCode : List Char := ['\t', '-', '1', '.', '.', '5']

theorem scan_longest_pointed :
    LexemeFront ['-'] (pointedCode.dropWhile isGap) ∧
    LongestFront ['-', '1'] (pointedCode.dropWhile isGap) ∧
    scan .integer anonymous pointedCode ⟨2, 0⟩ =
      .ok ⟨⟨.number (.integer (-1)), ⟨2, 1⟩, "-1"⟩, 3, ⟨2, 3⟩⟩ := by
  have hminus : LexemeFront ['-'] (pointedCode.dropWhile isGap) :=
    ⟨by decide, by decide, .particle .minus, rfl⟩
  have hrun : scan .integer anonymous pointedCode ⟨2, 0⟩ =
      .ok ⟨⟨.number (.integer (-1)), ⟨2, 1⟩, "-1"⟩, 3, ⟨2, 3⟩⟩ := by
    decide +kernel
  obtain ⟨shape, text, hlongest, -, -, houtcome⟩ :=
    (scan_longest .integer anonymous pointedCode ⟨2, 0⟩).2.1 ⟨_, hminus⟩
  rcases houtcome with ⟨l, s, hs, htoken, -⟩ | ⟨e, -, -, ⟨-, hs⟩ | ⟨-, y, hs, -⟩⟩
  · cases hrun.symm.trans hs
    have htext : text = ['-', '1'] := by
      have hsame := congrArg (String.toList ∘ Token.text) htoken
      simpa using hsame.symm
    rw [htext] at hlongest
    exact ⟨hminus, hlongest, hrun⟩
  · cases hrun.symm.trans hs
  · cases hrun.symm.trans hs

end ExprFront
