import ExprFront.Outcome
import ExprFront.Scanner

/-!
# The cursor

A cursor stands in a source: what lies behind it, what lies ahead, and the position
between the two.  `Cursor.next` scans one token and moves past it; a failed scan moves
nothing.  `Cursor.tokens` scans to the end of input, and `Cursor.fetch` to the next token
that is not skipped.  Both keep the cursor where a failure stopped them.

Text may be appended to the source at any time.
-/

namespace ExprFront

/-- A place in a source text. -/
structure Cursor where
  /-- The characters behind the cursor, the nearest first. -/
  taken : List Char
  /-- The characters ahead. -/
  rest : List Char
  pos : Position
  filename : String
  convert : Converter

namespace Cursor

/-- A cursor at the start of a source. -/
def start (source filename : String) (convert : Converter) : Cursor :=
  ⟨[], source.toList, .origin, filename, convert⟩

/-- The whole source. -/
def source (c : Cursor) : List Char := c.taken.reverse ++ c.rest

/-- The number of characters behind the cursor. -/
def offset (c : Cursor) : Nat := c.taken.length

/-- The cursor after a scanned token. -/
def advance (c : Cursor) (s : Scan) : Cursor :=
  { c with
    taken := (c.rest.take s.width).reverse ++ c.taken
    rest := c.rest.drop s.width
    pos := s.next }

/-- The cursor with more text at the end of its source. -/
def append (c : Cursor) (text : String) : Cursor := { c with rest := c.rest ++ text.toList }

/-- The next token, skipped ones included, and the cursor after it. -/
def next (c : Cursor) : Except Failure (Token × Cursor) :=
  match scan c.convert c.filename c.rest c.pos with
  | .error e => .error e
  | .ok s => .ok (s.token, c.advance s)

/-- A token other than the end of input leaves less ahead of the cursor. -/
theorem next_rest_length_lt {c c' : Cursor} {t : Token} (h : c.next = .ok (t, c'))
    (ht : t.isEnd = false) : c'.rest.length < c.rest.length := by
  unfold next at h
  split at h
  · cases h
  · next s hs =>
    cases h
    have := scan_width_pos hs ht
    have := scan_width_le hs
    simp only [advance, List.length_drop]
    omega

/-- A skipped token is not the end of input. -/
theorem isEnd_of_isSkip {t : Token} (h : t.isSkip = true) : t.isEnd = false := by
  simp only [Token.isSkip, decide_eq_true_eq] at h
  simp [Token.isEnd, h]

/-- All tokens up to and including the end of input.  Skipped ones are listed on
demand. -/
def tokens (includeSkips : Bool) (c : Cursor) : Outcome Cursor (List Token) :=
  match _h : c.next with
  | .error e => .error e c
  | .ok (t, c') =>
    if _he : t.isEnd then .ok [t] c'
    else
      match tokens includeSkips c' with
      | .error e c'' => .error e c''
      | .ok ts c'' => .ok (if t.isSkip && !includeSkips then ts else t :: ts) c''
termination_by c.rest.length
decreasing_by exact next_rest_length_lt _h (by simpa using _he)

/-- The next token that is not skipped. -/
def fetch (c : Cursor) : Outcome Cursor Token :=
  match _h : c.next with
  | .error e => .error e c
  | .ok (t, c') => if _hs : t.isSkip then fetch c' else .ok t c'
termination_by c.rest.length
decreasing_by exact next_rest_length_lt _h (isEnd_of_isSkip _hs)

/-- The tokens that are not skipped from the cursor up to an offset. -/
def fetchedUpTo (offset : Nat) (c : Cursor) : List Token :=
  if c.offset < offset then
    match _h : c.next with
    | .error _ => []
    | .ok (t, c') =>
      if _he : t.isEnd then []
      else if t.isSkip then fetchedUpTo offset c' else t :: fetchedUpTo offset c'
  else []
termination_by c.rest.length
decreasing_by all_goals exact next_rest_length_lt _h (by simpa using _he)

/-! ## Steps -/

/-- What a cursor can be asked to do. -/
inductive Step where
  | scan
  | tokenize (includeSkips : Bool)
  | append (text : String)
deriving DecidableEq, Repr

/-- What a step answers. -/
inductive Answer where
  | token (t : Token)
  | tokens (ts : List Token)
  | done
deriving DecidableEq, Repr

/-- One step. -/
def step (c : Cursor) : Step → Outcome Cursor Answer
  | .scan =>
    match c.next with
    | .error e => .error e c
    | .ok (t, c') => .ok (.token t) c'
  | .tokenize includeSkips =>
    match c.tokens includeSkips with
    | .error e c' => .error e c'
    | .ok ts c' => .ok (.tokens ts) c'
  | .append text => .ok .done (c.append text)

end Cursor

/-- The tokens of a source up to and including the end of input. -/
def tokenize (source filename : String) (convert : Converter) (includeSkips : Bool) :
    Except Failure (List Token) :=
  match (Cursor.start source filename convert).tokens includeSkips with
  | .error e _ => .error e
  | .ok ts _ => .ok ts

/-- The kinds of tokens, the end of input left out. -/
def kindsOf (ts : List Token) : List Kind := ts.filterMap Token.kind?

/-- The kinds that a token answers to, in the order of the vocabulary. -/
def Token.allAnswers (t : Token) : List Kind := Kind.all.filter t.answers

end ExprFront
