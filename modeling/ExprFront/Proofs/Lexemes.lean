import ExprFront.Cursor
import Mathlib.Data.List.TakeWhile

/-!
# The languages of lexemes

What a fragment looks like, said without the scanner, and what the scanner makes of it.

* `IsNumeral` and `IsName` are the languages of numerals and names.  A fragment that is
  taken as a numeral is in the language (`Fragment.isNumeral_numeral`).
* No fragment holds a line break besides the lone line break (`Fragment.take?_break`).
* A lexeme that is followed by a gap, a line break or the end of the text is taken whole
  (`Fragment.take?_numeral`, `Fragment.take?_name`, `Fragment.take?_symbol`).
* `Cursor.next_cases` and `Cursor.next_error` say all that one step of the cursor can do.
  Everything that is proved about runs of the cursor rests on these two.  In the other
  direction, `Cursor.next_of_isGap` and `Cursor.next_eq_of_take?` say when a step succeeds.
-/

namespace ExprFront

/-! ## Numerals and names -/

/-- A run of at least one digit. -/
def IsDigits (cs : List Char) : Prop := cs ≠ [] ∧ ∀ c ∈ cs, c.isDigit = true

/-- A numeral: `-?[0-9]+(\.[0-9]+)?`. -/
def IsNumeral (cs : List Char) : Prop :=
  ∃ sign whole fraction, cs = sign ++ (whole ++ fraction) ∧ (sign = [] ∨ sign = ['-']) ∧
    IsDigits whole ∧ (fraction = [] ∨ ∃ digits, fraction = '.' :: digits ∧ IsDigits digits)

/-- A name: one character that may start a name, and any that may go on with it. -/
def IsName (cs : List Char) : Prop :=
  ∃ c rest, cs = c :: rest ∧ isNameStart c = true ∧ ∀ d ∈ rest, isNameRest d = true

/-- A run of blanks. -/
def IsGap (cs : List Char) : Prop := ∀ c ∈ cs, isGap c = true

theorem isGap_nil : IsGap [] := by
  intro c hc
  cases hc

theorem isGap_takeWhile (cs : List Char) : IsGap (cs.takeWhile isGap) :=
  fun _ hc => List.mem_takeWhile_imp hc

/-- Digits start with a digit. -/
theorem IsDigits.exists_cons {cs : List Char} (h : IsDigits cs) :
    ∃ c r, cs = c :: r ∧ c.isDigit = true := by
  obtain ⟨hne, hall⟩ := h
  cases cs with
  | nil => exact absurd rfl hne
  | cons c r => exact ⟨c, r, rfl, hall c (by simp)⟩

/-- A numeral starts with its sign or a digit. -/
theorem IsNumeral.exists_cons {text : List Char} (h : IsNumeral text) :
    ∃ c r, text = c :: r ∧ (c = '-' ∨ c.isDigit = true) := by
  obtain ⟨sign, whole, fraction, rfl, hs, hw, -⟩ := h
  obtain ⟨c, w, rfl, hc⟩ := hw.exists_cons
  rcases hs with rfl | rfl
  · exact ⟨c, w ++ fraction, rfl, .inr hc⟩
  · exact ⟨'-', c :: w ++ fraction, rfl, .inl rfl⟩

theorem IsDigits.takeWhile {cs : List Char} (h : (cs.takeWhile Char.isDigit).isEmpty = false) :
    IsDigits (cs.takeWhile Char.isDigit) :=
  ⟨by simpa using h, fun _ hc => List.mem_takeWhile_imp hc⟩

namespace Fragment

/-- Digits at the front, with their fraction, are a numeral without a sign. -/
theorem unsigned_eq {cs : List Char} (h : (cs.takeWhile Char.isDigit).isEmpty = false) :
    ∃ whole fraction, unsigned cs = whole ++ fraction ∧ IsDigits whole ∧
      (fraction = [] ∨ ∃ digits, fraction = '.' :: digits ∧ IsDigits digits) := by
  refine ⟨_, _, rfl, IsDigits.takeWhile h, ?_⟩
  split
  · next rest _ =>
    split
    · exact .inl rfl
    · next hd => exact .inr ⟨_, rfl, IsDigits.takeWhile (by simpa using hd)⟩
  · exact .inl rfl

/-- What is taken as a numeral is one. -/
theorem isNumeral_numeral {cs : List Char} (h : numeral cs ≠ []) : IsNumeral (numeral cs) := by
  unfold numeral at h ⊢
  split
  · next rest =>
    split
    · next he => simp [he] at h
    · next he =>
      obtain ⟨whole, fraction, hu, hw, hf⟩ := unsigned_eq (by simpa using he)
      exact ⟨['-'], whole, fraction, by rw [hu]; rfl, .inr rfl, hw, hf⟩
  · split
    · next he => simp [he] at h
    · next he =>
      obtain ⟨whole, fraction, hu, hw, hf⟩ := unsigned_eq (by simpa using he)
      exact ⟨[], whole, fraction, hu, .inl rfl, hw, hf⟩

/-- What is taken as a name is one. -/
theorem isName_word {cs : List Char} (h : word cs ≠ []) : IsName (word cs) := by
  cases cs with
  | nil => exact absurd rfl h
  | cons c rest =>
    rw [word] at h ⊢
    split at h
    · next hc =>
      rw [if_pos hc]
      exact ⟨c, _, rfl, hc, fun d hd => List.mem_takeWhile_imp hd⟩
    · exact absurd rfl h

end Fragment

/-! ## Line breaks -/

theorem newline_notMem_of_isGap {cs : List Char} (h : IsGap cs) : '\n' ∉ cs := by
  intro hmem
  exact absurd (h _ hmem) (by decide)

theorem newline_notMem_of_isDigits {cs : List Char} (h : ∀ c ∈ cs, c.isDigit = true) :
    '\n' ∉ cs := by
  intro hmem
  exact absurd (h _ hmem) (by decide)

theorem IsNumeral.newline_notMem {cs : List Char} (h : IsNumeral cs) : '\n' ∉ cs := by
  obtain ⟨sign, whole, fraction, rfl, hs, hw, hf⟩ := h
  simp only [List.mem_append, not_or]
  refine ⟨?_, newline_notMem_of_isDigits hw.2, ?_⟩
  · rcases hs with rfl | rfl <;> decide
  · rcases hf with rfl | ⟨digits, rfl, hd⟩
    · decide
    · simpa using newline_notMem_of_isDigits hd.2

theorem IsName.newline_notMem {cs : List Char} (h : IsName cs) : '\n' ∉ cs := by
  obtain ⟨c, rest, rfl, hc, hr⟩ := h
  intro hmem
  rcases List.mem_cons.1 hmem with rfl | hmem
  · exact absurd hc (by decide)
  · exact absurd (hr _ hmem) (by decide)

theorem Particle.one?_newline : Particle.one? '\n' = none := rfl

theorem Particle.two?_ne_newline {c d : Char} {p : Particle} (h : Particle.two? c d = some p) :
    c ≠ '\n' ∧ d ≠ '\n' := by
  unfold Particle.two? at h
  split at h <;> cases h <;> decide

namespace Fragment

theorem particle?_newline_notMem {cs text : List Char} {p : Particle}
    (h : particle? cs = some (p, text)) : '\n' ∉ text := by
  have single : ∀ {c : Char} {q : Particle × List Char},
      (Particle.one? c).map (·, [c]) = some q → '\n' ∉ q.2 := by
    intro c q hq
    obtain ⟨r, hr, rfl⟩ := Option.map_eq_some_iff.1 hq
    intro hmem
    rw [← List.mem_singleton.1 hmem, Particle.one?_newline] at hr
    cases hr
  unfold particle? at h
  split at h
  · cases h
  · exact single h
  · next c d _ =>
    split at h
    · next q hq =>
      cases h
      have hne := Particle.two?_ne_newline hq
      simpa using ⟨hne.1.symm, hne.2.symm⟩
    · exact single h

/-- A fragment is a lone line break or holds none. -/
theorem take?_break {cs text : List Char} {s : Shape} (h : take? cs = some (s, text)) :
    text = ['\n'] ∨ '\n' ∉ text := by
  unfold take? at h
  split at h
  · next found hs =>
    cases h
    unfold skipped? at hs
    split at hs
    · cases hs
      exact .inl rfl
    · next rest _ =>
      cases hs
      right
      intro hmem
      simp only [List.mem_cons, Char.reduceEq, false_or] at hmem
      have := List.mem_takeWhile_imp hmem
      simp at this
    · cases hs
  · right
    split at h
    · next hn =>
      cases h
      exact (isNumeral_numeral (by simpa using hn)).newline_notMem
    · split at h
      · next hw =>
        cases h
        exact (isName_word (by simpa using hw)).newline_notMem
      · obtain ⟨⟨p, t⟩, hp, he⟩ := Option.map_eq_some_iff.1 h
        cases he
        exact particle?_newline_notMem hp

end Fragment

/-! ## Lexemes that stand alone -/

/-- A text that cannot go on with a lexeme: it is empty, or starts with a blank or a line
break. -/
def Boundary (cs : List Char) : Prop := ∀ c ∈ cs.head?, isGap c = true ∨ c = '\n'

/-- The three characters at a boundary. -/
theorem Boundary.cases {cs : List Char} (h : Boundary cs) :
    cs = [] ∨ (∃ r, cs = ' ' :: r) ∨ (∃ r, cs = '\t' :: r) ∨ ∃ r, cs = '\n' :: r := by
  cases cs with
  | nil => exact .inl rfl
  | cons c r =>
    rcases h c rfl with hc | rfl
    · simp only [isGap, Bool.or_eq_true, decide_eq_true_eq] at hc
      rcases hc with rfl | rfl
      · exact .inr (.inl ⟨r, rfl⟩)
      · exact .inr (.inr (.inl ⟨r, rfl⟩))
    · exact .inr (.inr (.inr ⟨r, rfl⟩))

theorem Boundary.takeWhile_isDigit {cs : List Char} (h : Boundary cs) :
    cs.takeWhile Char.isDigit = [] := by
  rcases h.cases with rfl | ⟨r, rfl⟩ | ⟨r, rfl⟩ | ⟨r, rfl⟩ <;> rfl

theorem Boundary.takeWhile_isNameRest {cs : List Char} (h : Boundary cs) :
    cs.takeWhile isNameRest = [] := by
  rcases h.cases with rfl | ⟨r, rfl⟩ | ⟨r, rfl⟩ | ⟨r, rfl⟩ <;> rfl

/-- No name starts with a digit: all letters come after the digits. -/
theorem isNameStart_of_isDigit {c : Char} (h : c.isDigit = true) : isNameStart c = false := by
  simp only [Char.isDigit, Bool.and_eq_true, decide_eq_true_eq, UInt32.le_iff_toNat_le] at h
  have hlt : c.toNat < 0x41 := Nat.lt_of_le_of_lt h.2 (by decide)
  have hletter : Text.isLetter c = false := if_pos hlt
  have hscore : c ≠ '_' := by
    rintro rfl
    exact absurd hlt (by decide)
  simp [isNameStart, hletter, hscore]

/-- Digits that end at something else are taken whole. -/
theorem IsDigits.takeWhile_append {digits rest : List Char} (hd : IsDigits digits)
    (hr : rest.takeWhile Char.isDigit = []) :
    (digits ++ rest).takeWhile Char.isDigit = digits := by
  rw [List.takeWhile_append_of_pos hd.2, hr, List.append_nil]

theorem IsDigits.dropWhile_append {digits rest : List Char} (hd : IsDigits digits)
    (hr : rest.takeWhile Char.isDigit = []) :
    (digits ++ rest).dropWhile Char.isDigit = rest := by
  rw [List.dropWhile_append_of_pos hd.2]
  have whole : rest.takeWhile Char.isDigit ++ rest.dropWhile Char.isDigit = rest :=
    List.takeWhile_append_dropWhile
  rwa [hr, List.nil_append] at whole

namespace Fragment

/-- Digits at the front are taken, and then what would be taken behind them. -/
theorem unsigned_digits {whole : List Char} (hw : IsDigits whole) (rest : List Char) :
    unsigned (whole ++ rest) = whole ++ unsigned rest := by
  rw [unsigned, unsigned, List.takeWhile_append_of_pos hw.2, List.dropWhile_append_of_pos hw.2,
    List.append_assoc]

/-- A point with digits behind it is taken, and more digits if there are any. -/
theorem unsigned_point {digits : List Char} (hd : IsDigits digits) (rest : List Char) :
    unsigned ('.' :: (digits ++ rest)) = '.' :: (digits ++ rest.takeWhile Char.isDigit) := by
  have hne : (digits ++ rest.takeWhile Char.isDigit).isEmpty = false := by
    simp [hd.1]
  have hpoint : ('.' :: (digits ++ rest)).takeWhile Char.isDigit = [] := rfl
  have hdrop : ('.' :: (digits ++ rest)).dropWhile Char.isDigit = '.' :: (digits ++ rest) := rfl
  rw [unsigned, hpoint, hdrop]
  simp only [List.takeWhile_append_of_pos hd.2, hne, Bool.false_eq_true, if_false, List.nil_append]

theorem numeral_digits {sign whole : List Char} (hs : sign = [] ∨ sign = ['-'])
    (hw : IsDigits whole) (rest : List Char) :
    numeral (sign ++ (whole ++ rest)) = sign ++ (whole ++ unsigned rest) := by
  have hu := unsigned_digits hw rest
  obtain ⟨c, w, rfl, hc⟩ := hw.exists_cons
  have htake : ((c :: w ++ rest).takeWhile Char.isDigit).isEmpty = false := by
    simp [hc]
  rw [← hu]
  rcases hs with rfl | rfl
  · rw [List.nil_append, numeral]
    · rw [htake]
      rfl
    · rintro r hr
      rw [(List.cons.inj hr).1] at hc
      exact absurd hc (by decide)
  · rw [List.singleton_append, numeral, htake]
    rfl

theorem numeral_append {text rest : List Char} (ht : IsNumeral text) (hr : Boundary rest) :
    numeral (text ++ rest) = text := by
  obtain ⟨sign, whole, fraction, rfl, hs, hw, hf⟩ := ht
  rw [List.append_assoc, List.append_assoc, numeral_digits hs hw]
  rcases hf with rfl | ⟨digits, rfl, hd⟩
  · have hnone : unsigned rest = [] := by
      rcases hr.cases with rfl | ⟨r, rfl⟩ | ⟨r, rfl⟩ | ⟨r, rfl⟩ <;> rfl
    rw [List.nil_append, hnone]
  · rw [List.cons_append, unsigned_point hd, hr.takeWhile_isDigit, List.append_nil]

/-- Only a line break and a slash start something that is skipped. -/
theorem skipped?_eq_none {c : Char} {cs : List Char} (hn : c ≠ '\n') (hs : c ≠ '/') :
    skipped? (c :: cs) = none := by
  unfold skipped?
  split
  · next h => exact absurd (List.cons.inj h).1 hn
  · next h => exact absurd (List.cons.inj h).1 hs
  · rfl

/-- Where a numeral stands at the front, the numeral that is found there is taken. -/
theorem take?_eq_numeral {text : List Char} (ht : IsNumeral text) (rest : List Char) :
    take? (text ++ rest) = some (.numeral, numeral (text ++ rest)) := by
  have hne : numeral (text ++ rest) ≠ [] := by
    obtain ⟨sign, whole, fraction, rfl, hs, hw, -⟩ := ht
    rw [List.append_assoc, List.append_assoc, numeral_digits hs hw]
    simp [hw.1]
  obtain ⟨c, r, rfl, hc⟩ := ht.exists_cons
  have hskip : skipped? (c :: r ++ rest) = none := by
    apply skipped?_eq_none
    · rintro rfl
      exact absurd hc (by decide)
    · rintro rfl
      exact absurd hc (by decide)
  exact take?_of_numeral hskip hne

/-- A numeral before a boundary is taken whole. -/
theorem take?_numeral {text rest : List Char} (ht : IsNumeral text) (hr : Boundary rest) :
    take? (text ++ rest) = some (.numeral, text) := by
  rw [take?_eq_numeral ht, numeral_append ht hr]

/-- A name before a boundary is taken whole. -/
theorem take?_name {text rest : List Char} (ht : IsName text) (hr : Boundary rest) :
    take? (text ++ rest) = some (.word, text) := by
  obtain ⟨c, r, rfl, hc, hall⟩ := ht
  have hskip : skipped? (c :: r ++ rest) = none := by
    apply skipped?_eq_none
    · rintro rfl
      exact absurd hc (by decide)
    · rintro rfl
      exact absurd hc (by decide)
  have hdigit : c.isDigit = false := by
    cases hd : c.isDigit with
    | false => rfl
    | true => rw [isNameStart_of_isDigit hd] at hc; exact absurd hc (by decide)
  have hnum : numeral (c :: r ++ rest) = [] := by
    rw [List.cons_append, numeral]
    · simp [hdigit]
    · intro r' he
      rw [(List.cons.inj he).1] at hc
      exact absurd hc (by decide)
  have hword : word (c :: r ++ rest) = c :: r := by
    rw [List.cons_append, word, if_pos hc, List.takeWhile_append_of_pos hall,
      hr.takeWhile_isNameRest, List.append_nil]
  have hne : word (c :: r ++ rest) ≠ [] := by
    rw [hword]
    exact List.cons_ne_nil c r
  rw [take?_of_word hskip hnum hne, hword]

/-- A particle before a boundary is taken whole. -/
theorem take?_symbol (p : Particle) {rest : List Char} (hr : Boundary rest) :
    take? (p.symbol.toList ++ rest) = some (.particle p, p.symbol.toList) := by
  rcases hr.cases with rfl | ⟨r, rfl⟩ | ⟨r, rfl⟩ | ⟨r, rfl⟩ <;> cases p <;> rfl

/-- A fragment classed as a numeral is one. -/
theorem isNumeral_of_take? {cs text : List Char} (h : take? cs = some (.numeral, text)) :
    IsNumeral text := by
  unfold take? at h
  split at h
  · next found hs =>
    cases h
    unfold skipped? at hs
    split at hs <;> cases hs
  · split at h
    · next hn =>
      cases h
      exact isNumeral_numeral (by simpa using hn)
    · split at h
      · cases h
      · obtain ⟨_, -, he⟩ := Option.map_eq_some_iff.1 h
        cases he

/-- No fragment starts with a blank. -/
theorem take?_gap {c : Char} {cs : List Char} (h : isGap c = true) :
    take? (c :: cs) = none := by
  simp only [isGap, Bool.or_eq_true, decide_eq_true_eq] at h
  rcases h with rfl | rfl
  · cases cs <;> rfl
  · cases cs <;> rfl

/-- A gap before a fragment ends where the fragment begins. -/
theorem gap_of_take? {gap cs : List Char} {found : Shape × List Char} (hgap : IsGap gap)
    (h : take? cs = some found) :
    (gap ++ cs).takeWhile isGap = gap ∧ (gap ++ cs).dropWhile isGap = cs := by
  cases cs with
  | nil => cases h
  | cons c rest =>
    have hc : ¬ isGap c = true := by
      intro hc
      rw [take?_gap hc] at h
      cases h
    rw [List.takeWhile_append_of_pos hgap, List.dropWhile_append_of_pos hgap,
      List.takeWhile_cons_of_neg hc, List.dropWhile_cons_of_neg hc, List.append_nil]
    exact ⟨rfl, rfl⟩

end Fragment

/-! ## Steps of the cursor -/

theorem Shape.lexeme_error {convert : Converter} {text : String} {s : Shape}
    {e : ConversionError} (h : s.lexeme convert text = .error e) :
    s = .numeral ∧ convert text = .error e := by
  cases s with
  | numeral =>
    refine ⟨rfl, ?_⟩
    rw [Shape.lexeme] at h
    cases hc : convert text with
    | error e' => rw [hc] at h; cases h; rfl
    | ok v => rw [hc] at h; cases h
  | lineBreak | comment | word | particle => cases h

theorem Shape.exists_of_lexeme_numeral {convert : Converter} {text : String} {l : Lexeme}
    (h : Shape.numeral.lexeme convert text = .ok l) :
    ∃ v, convert text = .ok v ∧ l = .number v := by
  rw [lexeme] at h
  cases hconvert : convert text with
  | error e =>
    rw [hconvert] at h
    cases h
  | ok v =>
    rw [hconvert] at h
    cases h
    exact ⟨v, rfl, rfl⟩

theorem Shape.lexeme_ne_endOfInput {convert : Converter} {text : String} {s : Shape}
    {l : Lexeme} (h : s.lexeme convert text = .ok l) : l ≠ .endOfInput := by
  rintro rfl
  cases s with
  | numeral =>
    rw [Shape.lexeme] at h
    cases hc : convert text with
    | error e => rw [hc] at h; cases h
    | ok v => rw [hc] at h; cases h
  | lineBreak | comment | word | particle => cases h

namespace Cursor

theorem advance_append {c : Cursor} {front after : List Char} (h : c.rest = front ++ after)
    (t : Token) (p : Position) :
    c.advance ⟨t, front.length, p⟩ =
      { c with taken := front.reverse ++ c.taken, rest := after, pos := p } := by
  simp [advance, h]

/-- The two ways in which a step succeeds: at the end of input nothing moves, and anywhere
else a gap and a fragment are taken. -/
theorem next_cases {c c' : Cursor} {t : Token} (h : c.next = .ok (t, c')) :
    (t = ⟨.endOfInput, c.pos, ""⟩ ∧ c' = c ∧ IsGap c.rest) ∨
      ∃ gap text after shape lexeme,
        c.rest = gap ++ (text ++ after) ∧ IsGap gap ∧
        Fragment.take? (text ++ after) = some (shape, text) ∧
        shape.lexeme c.convert (String.ofList text) = .ok lexeme ∧
        t = ⟨lexeme, c.pos.advance gap, String.ofList text⟩ ∧
        c' = { c with
          taken := (gap ++ text).reverse ++ c.taken
          rest := after
          pos := (c.pos.advance gap).advance text } := by
  have split : c.rest.takeWhile isGap ++ c.rest.dropWhile isGap = c.rest :=
    List.takeWhile_append_dropWhile
  unfold next at h
  split at h
  · cases h
  · next s hs =>
    cases h
    rcases scan_cases hs with ⟨hend, rfl⟩ | ⟨shape, text, lexeme, ht, hl, rfl⟩
    · left
      rw [hend, List.append_nil] at split
      exact ⟨rfl, by simp [advance], split ▸ isGap_takeWhile c.rest⟩
    · right
      obtain ⟨after, hafter⟩ := (Fragment.take?_isPrefixOf ht).2
      rw [← hafter] at ht split
      refine ⟨_, text, after, shape, lexeme, split.symm, isGap_takeWhile c.rest, ht, hl, rfl, ?_⟩
      have hwhole : c.rest = (c.rest.takeWhile isGap ++ text) ++ after := by
        rw [List.append_assoc, split]
      rw [← List.length_append]
      exact advance_append hwhole _ _

/-- Only blanks are left where a step finds the end of input. -/
theorem next_end {c c' : Cursor} {t : Token} (h : c.next = .ok (t, c')) (hend : t.isEnd = true) :
    t = ⟨.endOfInput, c.pos, ""⟩ ∧ c' = c ∧ IsGap c.rest := by
  rcases next_cases h with hfinish | ⟨_, _, _, _, l, -, -, -, hl, rfl, -⟩
  · exact hfinish
  · simp [Token.isEnd, Shape.lexeme_ne_endOfInput hl] at hend

/-- The two ways in which a step fails, both at the first character after the gap: no
fragment starts there, or the numeral there is refused. -/
theorem next_error {c : Cursor} {f : Failure} (h : c.next = .error f) :
    ∃ gap x bad, c.rest = gap ++ x :: bad ∧ IsGap gap ∧ isGap x = false ∧
      (Fragment.take? (x :: bad) = none ∧
          f = .lexical ⟨.unrecognized (String.ofList [x]), c.pos.advance gap, c.filename⟩ ∨
        ∃ text e, Fragment.take? (x :: bad) = some (.numeral, text) ∧
          c.convert (String.ofList text) = .error e ∧
          f = numeralFailure c.filename (String.ofList text) (c.pos.advance gap) e) := by
  have split : c.rest.takeWhile isGap ++ c.rest.dropWhile isGap = c.rest :=
    List.takeWhile_append_dropWhile
  unfold next at h
  split at h
  · next e he =>
    cases h
    unfold scan at he
    simp only at he
    split at he
    · cases he
    · next x bad hd =>
      have hx : isGap x = false := by
        have := List.head?_dropWhile_not isGap c.rest
        rw [hd] at this
        simpa using this
      refine ⟨_, x, bad, hd ▸ split.symm, isGap_takeWhile c.rest, hx, ?_⟩
      split at he
      · next hnone =>
        cases he
        exact .inl ⟨hnone, rfl⟩
      · next shape text ht =>
        split at he
        · next e' hl =>
          cases he
          obtain ⟨rfl, hc⟩ := Shape.lexeme_error hl
          exact .inr ⟨text, e', ht, hc, rfl⟩
        · cases he
  · cases h

/-- At the end of input, blanks or not, a step gives the end of input. -/
theorem next_of_isGap {c : Cursor} (h : IsGap c.rest) :
    c.next = .ok (⟨.endOfInput, c.pos, ""⟩, c) := by
  have hdrop : c.rest.dropWhile isGap = [] := List.dropWhile_eq_nil_iff.2 h
  unfold next scan
  simp only [hdrop]
  rw [show c.advance ⟨⟨.endOfInput, c.pos, ""⟩, 0, c.pos⟩ = c from rfl]

/-- A fragment after a gap is taken by one step. -/
theorem next_eq_of_take? {c : Cursor} {gap text after : List Char} {shape : Shape} {l : Lexeme}
    (h : c.rest = gap ++ (text ++ after)) (hgap : IsGap gap)
    (ht : Fragment.take? (text ++ after) = some (shape, text))
    (hl : shape.lexeme c.convert (String.ofList text) = .ok l) :
    c.next = .ok (⟨l, c.pos.advance gap, String.ofList text⟩,
      { c with
        taken := (gap ++ text).reverse ++ c.taken
        rest := after
        pos := (c.pos.advance gap).advance text }) := by
  obtain ⟨htake, hdrop⟩ := Fragment.gap_of_take? hgap ht
  rw [← h] at htake hdrop
  have hne := (Fragment.take?_isPrefixOf ht).1
  obtain ⟨x, xs, rfl⟩ := List.exists_cons_of_ne_nil hne
  have hscan : scan c.convert c.filename c.rest c.pos =
      .ok ⟨⟨l, c.pos.advance gap, String.ofList (x :: xs)⟩, (gap ++ x :: xs).length,
        (c.pos.advance gap).advance (x :: xs)⟩ := by
    rw [List.cons_append] at ht
    unfold scan
    simp only [hdrop, htake, List.cons_append, ht, hl, List.length_append]
  have hwhole : c.rest = (gap ++ x :: xs) ++ after := by rw [h, List.append_assoc]
  unfold next
  rw [hscan]
  simp only [advance_append hwhole]

end Cursor

end ExprFront
