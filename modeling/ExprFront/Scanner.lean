import ExprFront.Failure
import ExprFront.Text.Letters
import ExprFront.Text.Marks

/-!
# The scanner

`scan` reads one token from the front of a source text.  It drops a gap of spaces and
tabs, takes the fragment that follows, and classifies it:

* a line break, or a comment from `//` to the end of the line, is skipped;
* a numeral is `-?[0-9]+(\.[0-9]+)?`, and is converted at once;
* a name starts with a letter or an underscore and goes on with letters, underscores,
  ASCII digits and combining marks;
* a particle is one of the symbols, two characters before one.

At the end of the text nothing is taken, not even the gap.  The main fact about the
scanner is that any other token takes something (`scan_width_pos`,
`scan_width_le`), so that scanning ends.
-/

namespace ExprFront

/-- May the character stand between tokens on a line? -/
def isGap (c : Char) : Bool := c = ' ' || c = '\t'

/-- May a name start with the character? -/
def isNameStart (c : Char) : Bool := c = '_' || Text.isLetter c

/-- May a name go on with the character? -/
def isNameRest (c : Char) : Bool := isNameStart c || c.isDigit || Text.isMark c

/-- The classes of fragments. -/
inductive Shape where
  | lineBreak | comment | numeral | word
  | particle (p : Particle)
deriving DecidableEq, Repr

namespace Fragment

/-- The digits at the front, and a point with the digits after it if there are any. -/
def unsigned (cs : List Char) : List Char :=
  cs.takeWhile Char.isDigit ++
    match cs.dropWhile Char.isDigit with
    | '.' :: rest =>
      if (rest.takeWhile Char.isDigit).isEmpty then [] else '.' :: rest.takeWhile Char.isDigit
    | _ => []

/-- The numeral at the front; empty if there is none. -/
def numeral (cs : List Char) : List Char :=
  match cs with
  | '-' :: rest => if (rest.takeWhile Char.isDigit).isEmpty then [] else '-' :: unsigned rest
  | _ => if (cs.takeWhile Char.isDigit).isEmpty then [] else unsigned cs

/-- The name at the front; empty if there is none. -/
def word : List Char → List Char
  | [] => []
  | c :: rest => if isNameStart c then c :: rest.takeWhile isNameRest else []

/-- The particle at the front with its text, two characters before one. -/
def particle? : List Char → Option (Particle × List Char)
  | [] => none
  | [c] => (Particle.one? c).map (·, [c])
  | c :: d :: _ =>
    match Particle.two? c d with
    | some p => some (p, [c, d])
    | none => (Particle.one? c).map (·, [c])

/-- The line break or comment at the front with its text. -/
def skipped? : List Char → Option (Shape × List Char)
  | '\n' :: _ => some (.lineBreak, ['\n'])
  | '/' :: '/' :: rest => some (.comment, '/' :: '/' :: rest.takeWhile (· ≠ '\n'))
  | _ => none

/-- The fragment at the front of a text that does not start with a gap. -/
def take? (cs : List Char) : Option (Shape × List Char) :=
  match skipped? cs with
  | some found => some found
  | none =>
    if !(numeral cs).isEmpty then some (.numeral, numeral cs)
    else if !(word cs).isEmpty then some (.word, word cs)
    else (particle? cs).map fun (p, text) => (.particle p, text)

end Fragment

/-- What a failed conversion of a numeral amounts to.  Only a breakdown of the
converter is no verdict on the numeral. -/
def numeralFailure (filename text : String) (pos : Position) (e : ConversionError) : Failure :=
  match e.kind with
  | .overflow => .lexical ⟨.overflow text e.message, pos, filename⟩
  | .value | .invalidOperation | .zeroDivision | .type =>
    .lexical ⟨.invalidNumber text e.message, pos, filename⟩
  | .runtime => .breakdown e

/-- The lexeme of a fragment. -/
def Shape.lexeme (convert : Converter) (text : String) : Shape → Except ConversionError Lexeme
  | lineBreak | comment => .ok .skip
  | numeral => (convert text).map .number
  | word => .ok (.name text)
  | particle p => .ok (.particle p)

/-- A scanned token, how many characters it and the gap before it take, and the
position after it. -/
structure Scan where
  token : Token
  width : Nat
  next : Position
deriving DecidableEq, Repr

/-- Reads one token from the front of `code`, which begins at `pos`. -/
def scan (convert : Converter) (filename : String) (code : List Char) (pos : Position) :
    Except Failure Scan :=
  let gap := code.takeWhile isGap
  let start := pos.advance gap
  match code.dropWhile isGap with
  | [] => .ok ⟨⟨.endOfInput, pos, ""⟩, 0, pos⟩
  | c :: rest =>
    match Fragment.take? (c :: rest) with
    | none => .error (.lexical ⟨.unrecognized (String.ofList [c]), start, filename⟩)
    | some (shape, text) =>
      match shape.lexeme convert (String.ofList text) with
      | .error e => .error (numeralFailure filename (String.ofList text) start e)
      | .ok lexeme =>
        .ok ⟨⟨lexeme, start, String.ofList text⟩, gap.length + text.length, start.advance text⟩

/-! ## Fragments are nonempty and stand at the front -/

theorem takeWhile_isPrefixOf (p : Char → Bool) (cs : List Char) : cs.takeWhile p <+: cs :=
  ⟨cs.dropWhile p, List.takeWhile_append_dropWhile⟩

namespace Fragment

theorem unsigned_isPrefixOf (cs : List Char) : unsigned cs <+: cs := by
  rw [unsigned]
  have whole : cs.takeWhile Char.isDigit ++ cs.dropWhile Char.isDigit = cs :=
    List.takeWhile_append_dropWhile
  conv => rhs; rw [← whole]
  rw [List.prefix_append_right_inj]
  split
  · next rest hd =>
    rw [hd]
    split
    · exact List.nil_prefix
    · exact List.cons_prefix_cons.2 ⟨rfl, takeWhile_isPrefixOf _ _⟩
  · exact List.nil_prefix

theorem numeral_isPrefixOf (cs : List Char) : numeral cs <+: cs := by
  unfold numeral
  split
  · split
    · exact List.nil_prefix
    · exact List.cons_prefix_cons.2 ⟨rfl, unsigned_isPrefixOf _⟩
  · split
    · exact List.nil_prefix
    · exact unsigned_isPrefixOf _

theorem word_isPrefixOf (cs : List Char) : word cs <+: cs := by
  cases cs with
  | nil => exact List.nil_prefix
  | cons c rest =>
    rw [word]
    split
    · exact List.cons_prefix_cons.2 ⟨rfl, takeWhile_isPrefixOf _ _⟩
    · exact List.nil_prefix

theorem particle?_isPrefixOf {cs text : List Char} {p : Particle}
    (h : particle? cs = some (p, text)) : text ≠ [] ∧ text <+: cs := by
  unfold particle? at h
  split at h
  · cases h
  · obtain ⟨_, _, e⟩ := Option.map_eq_some_iff.1 h
    cases e
    exact ⟨by simp, by simp⟩
  · split at h
    · cases h
      exact ⟨by simp, by simp⟩
    · obtain ⟨_, _, e⟩ := Option.map_eq_some_iff.1 h
      cases e
      exact ⟨by simp, by simp⟩

theorem skipped?_isPrefixOf {cs text : List Char} {s : Shape}
    (h : skipped? cs = some (s, text)) : text ≠ [] ∧ text <+: cs := by
  unfold skipped? at h
  split at h
  · cases h
    exact ⟨by simp, by simp⟩
  · cases h
    exact ⟨by simp, by simp [takeWhile_isPrefixOf]⟩
  · cases h

/-- A fragment is nonempty and stands at the front of the text. -/
theorem take?_isPrefixOf {cs text : List Char} {s : Shape}
    (h : take? cs = some (s, text)) : text ≠ [] ∧ text <+: cs := by
  unfold take? at h
  split at h
  · next found hs =>
    cases h
    exact skipped?_isPrefixOf hs
  · split at h
    · next hn =>
      cases h
      exact ⟨by simpa using hn, numeral_isPrefixOf cs⟩
    · split at h
      · next hw =>
        cases h
        exact ⟨by simpa using hw, word_isPrefixOf cs⟩
      · obtain ⟨⟨p, t⟩, hp, e⟩ := Option.map_eq_some_iff.1 h
        cases e
        exact particle?_isPrefixOf hp

section Order

variable {cs : List Char} (hskip : skipped? cs = none)

include hskip

theorem take?_of_numeral (hnumeral : numeral cs ≠ []) :
    take? cs = some (.numeral, numeral cs) := by
  rw [take?, hskip]
  simp [hnumeral]

theorem take?_of_word (hnumeral : numeral cs = []) (hword : word cs ≠ []) :
    take? cs = some (.word, word cs) := by
  rw [take?, hskip]
  simp [hnumeral, hword]

theorem take?_of_particle (hnumeral : numeral cs = []) (hword : word cs = []) :
    take? cs = (particle? cs).map fun (p, text) => (.particle p, text) := by
  rw [take?, hskip]
  simp [hnumeral, hword]

end Order

end Fragment

/-! ## A token takes characters unless it is the end of input -/

/-- The two ways in which scanning succeeds. -/
theorem scan_cases {convert : Converter} {filename : String} {code : List Char} {pos : Position}
    {s : Scan} (h : scan convert filename code pos = .ok s) :
    (code.dropWhile isGap = [] ∧ s = ⟨⟨.endOfInput, pos, ""⟩, 0, pos⟩) ∨
      ∃ shape text lexeme,
        Fragment.take? (code.dropWhile isGap) = some (shape, text) ∧
        shape.lexeme convert (String.ofList text) = .ok lexeme ∧
        s = ⟨⟨lexeme, pos.advance (code.takeWhile isGap), String.ofList text⟩,
          (code.takeWhile isGap).length + text.length,
          (pos.advance (code.takeWhile isGap)).advance text⟩ := by
  unfold scan at h
  simp only at h
  split at h
  · next hd =>
    cases h
    exact .inl ⟨hd, rfl⟩
  · next c rest hd =>
    split at h
    · cases h
    · next shape text ht =>
      split at h
      · cases h
      · next lexeme hl =>
        cases h
        exact .inr ⟨shape, text, lexeme, hd ▸ ht, hl, rfl⟩

/-- A token other than the end of input takes at least one character. -/
theorem scan_width_pos {convert : Converter} {filename : String} {code : List Char}
    {pos : Position} {s : Scan} (h : scan convert filename code pos = .ok s)
    (hs : s.token.isEnd = false) : 0 < s.width := by
  rcases scan_cases h with ⟨_, rfl⟩ | ⟨shape, text, lexeme, ht, _, rfl⟩
  · simp [Token.isEnd] at hs
  · have := (Fragment.take?_isPrefixOf ht).1
    have : 0 < text.length := List.length_pos_iff.2 this
    simp only
    omega

/-- A token takes no more characters than there are. -/
theorem scan_width_le {convert : Converter} {filename : String} {code : List Char}
    {pos : Position} {s : Scan} (h : scan convert filename code pos = .ok s) :
    s.width ≤ code.length := by
  rcases scan_cases h with ⟨_, rfl⟩ | ⟨shape, text, lexeme, ht, _, rfl⟩
  · exact Nat.zero_le _
  · have hp := (Fragment.take?_isPrefixOf ht).2.length_le
    have : (code.takeWhile isGap).length + (code.dropWhile isGap).length = code.length := by
      rw [← List.length_append, List.takeWhile_append_dropWhile]
    simp only
    omega

end ExprFront
