import ExprFront.Text.Unprintable

/-!
# Quoted text

The written form of a text inside token dumps and messages.  The text stands
between single quotes, or between double quotes if it holds a single quote and no
double quote.  A backslash and the quote in use are escaped by a backslash, the
tab, line feed and carriage return by a letter, and every other unprintable
character by its code in two, four or eight hexadecimal digits.
-/

namespace ExprFront.Text

/-- The last `width` hexadecimal digits of `n`, in lower case. -/
def hexDigits : (width n : Nat) → List Char
  | 0, _ => []
  | width + 1, n => hexDigits width (n / 16) ++ [Nat.digitChar (n % 16)]

/-- One character of a quoted text. -/
def escapeChar (quote c : Char) : List Char :=
  if c = quote ∨ c = '\\' then ['\\', c]
  else if c = '\t' then ['\\', 't']
  else if c = '\n' then ['\\', 'n']
  else if c = '\r' then ['\\', 'r']
  else if isPrintable c then [c]
  else if c.toNat < 0x100 then '\\' :: 'x' :: hexDigits 2 c.toNat
  else if c.toNat < 0x10000 then '\\' :: 'u' :: hexDigits 4 c.toNat
  else '\\' :: 'U' :: hexDigits 8 c.toNat

/-- The quote that a text is written between. -/
def quoteFor (cs : List Char) : Char :=
  if '\x27' ∈ cs ∧ '\x22' ∉ cs then '\x22' else '\x27'

/-- The characters of the quoted form. -/
def quotedChars (cs : List Char) : List Char :=
  quoteFor cs :: cs.flatMap (escapeChar (quoteFor cs)) ++ [quoteFor cs]

/-- The quoted form of a text. -/
def quoted (s : String) : String := String.ofList (quotedChars s.toList)

end ExprFront.Text
