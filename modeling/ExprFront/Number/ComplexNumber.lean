import ExprFront.Number.Layout

/-!
# Complex numbers

A complex number has two double parts.  Its text is read with an optional pair of
parentheses around it, a real part, an imaginary part marked by `j`, or both, and no
blanks inside.
-/

namespace ExprFront.Number

/-- A complex number. -/
structure ComplexNumber where
  re : Binary
  im : Binary
deriving DecidableEq, Repr

/-- Zero without a minus sign. -/
def Binary.zero : Binary := .finite false 0 double.least

/-- Takes a word of a list off the front, letters of either case. -/
def takeWord? (word : String) (cs : List Char) : Option (List Char) :=
  if (cs.take word.length).map Char.toLower == word.toList then some (cs.drop word.length) else none

/-- The longest double at the front of a text: a numeral, an infinity or a NaN. -/
def takeDouble? (cs : List Char) : Option (Binary × List Char) :=
  match Numeral.take? cs with
  | some (n, rest) => some (double.ofNumeral n, rest)
  | none =>
    let (negative, body) := takeSign cs
    match takeWord? "infinity" body with
    | some rest => some (.infinite negative, rest)
    | none =>
      match takeWord? "inf" body with
      | some rest => some (.infinite negative, rest)
      | none =>
        match takeWord? "nan" body with
        | some rest => some (.nan, rest)
        | none => none

/-- Takes the mark of an imaginary part. -/
def takeImaginaryMark : List Char → Option (List Char)
  | 'j' :: rest => some rest
  | 'J' :: rest => some rest
  | _ => none

/-- A bare sign, or nothing, counts as a one of that sign. -/
def takeUnit (cs : List Char) : Binary × List Char :=
  let (negative, rest) := takeSign cs
  (double.round negative 1 1, rest)

namespace ComplexNumber

/-- How reading a complex number can fail. -/
inductive Fault where
  | malformed
  | misgrouped
deriving DecidableEq, Repr

/-- An imaginary part: a double or a bare sign, and the mark. -/
def takeImaginary? (cs : List Char) : Option (Binary × List Char) :=
  let (y, rest) := (takeDouble? cs).getD (takeUnit cs)
  (takeImaginaryMark rest).map (y, ·)

/-- A complex number at the front of a text and what follows it. -/
def take? (cs : List Char) : Option (ComplexNumber × List Char) :=
  match takeDouble? cs with
  | none => (takeImaginary? cs).map fun (y, rest) => (⟨.zero, y⟩, rest)
  | some (x, rest) =>
    match rest with
    | c :: _ =>
      if c = '+' ∨ c = '-' then (takeImaginary? rest).map fun (y, rest) => (⟨x, y⟩, rest)
      else
        match takeImaginaryMark rest with
        | some rest => some (⟨.zero, x⟩, rest)
        | none => some (⟨x, .zero⟩, rest)
    | [] => some (⟨x, .zero⟩, [])

/-- A text without blanks at its ends that is a complex number, or one in
parentheses. -/
def readBare? (cs : List Char) : Option ComplexNumber :=
  match cs with
  | '(' :: body =>
    match take? (body.dropWhile Text.isPadding) with
    | some (z, rest) => if rest.dropWhile Text.isPadding = [')'] then some z else none
    | none => none
  | _ =>
    match take? cs with
    | some (z, []) => some z
    | _ => none

/-- The text up to and including its first character that is no graphic ASCII character
and not blank.  Nothing after such a character matters. -/
def upToForeign : List Char → List Char
  | [] => []
  | c :: cs => if c.toNat < 127 || Text.isPadding c then c :: upToForeign cs else ['?']

/-- The text in ASCII digits.  A text of ASCII characters stays as it is; any other one
ends at its first foreign character. -/
def asciiText (cs : List Char) : List Char :=
  if cs.all (·.toNat < 128) then cs else upToForeign (cs.map Text.asciiDigit)

/-- The text without its underscores.  They are looked for up to the first NUL only; where
one is found, the NUL itself is out of place. -/
def ungrouped (cs : List Char) : Except Fault (List Char) :=
  let head := cs.takeWhile (· ≠ '\x00')
  if !head.contains '_' then .ok cs
  else if head.length < cs.length then .error .misgrouped
  else
    match ungroup head with
    | some cs => .ok cs
    | none => .error .misgrouped

/-- Reads a complex number. -/
def read (s : String) : Except Fault ComplexNumber :=
  match ungrouped (Text.trim Text.isPadding (asciiText s.toList)) with
  | .error e => .error e
  | .ok cs =>
    match readBare? cs with
    | some z => .ok z
    | none => .error .malformed

/-- The text of a complex number.  Without a real part it is the imaginary part
alone. -/
def text (z : ComplexNumber) : String :=
  let im := Layout.part.write double z.im
  match z.re with
  | .finite false 0 _ => im ++ "j"
  | _ =>
    let mark := if im.startsWith "-" then "" else "+"
    "(" ++ Layout.part.write double z.re ++ mark ++ im ++ "j)"

end ComplexNumber

end ExprFront.Number
