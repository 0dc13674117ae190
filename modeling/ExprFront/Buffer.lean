import ExprFront.Cursor

/-!
# Looking ahead

A buffer holds the tokens that have been looked at and not yet consumed.  It fetches
from its cursor only what a look ahead needs, passes over skipped tokens, and does not
ask the cursor again once it has met the end of input.  A single look may need at most
`capacity` tokens.

The operations run in a monad that keeps the state of the buffer through failures:
tokens that were fetched before a failure stay buffered.
-/

namespace ExprFront

/-- Tokens fetched ahead of their use. -/
structure Buffer where
  cursor : Cursor
  queue : List Token
  exhausted : Bool
  consumed : Nat
  lastPos : Option Position
  capacity : Int

/-- A computation on a buffer; a failure keeps the buffer as it was then. -/
abbrev Parser := EStateM Failure Buffer

namespace Buffer

/-- An empty buffer before a cursor. -/
def ofCursor (cursor : Cursor) (capacity : Int) : Buffer := ⟨cursor, [], false, 0, none, capacity⟩

/-- Fetches at most `n` tokens. -/
def pull : Nat → Buffer → Outcome Buffer Unit
  | 0, b => .ok () b
  | n + 1, b =>
    if b.exhausted then .ok () b
    else
      match b.cursor.fetch with
      | .error e c => .error e { b with cursor := c }
      | .ok t c =>
        if t.isEnd then .ok () { b with cursor := c, exhausted := true }
        else pull n { b with cursor := c, queue := b.queue ++ [t] }

/-- Fetches tokens until the one at `offset` is buffered or the input ends. -/
def fill (offset : Int) : Parser Unit := fun b =>
  if b.capacity ≤ offset then .error (.beyondCapacity offset b.capacity) b
  else pull ((offset + 1).toNat - b.queue.length) b

/-- The buffered token at `offset`; a negative offset counts from the end of the
buffer and must not reach beyond its start. -/
def buffered (offset : Int) : Parser (Option Token) := fun b =>
  if 0 ≤ offset then .ok b.queue[offset.toNat]? b
  else if 0 ≤ b.queue.length + offset then .ok b.queue[(b.queue.length + offset).toNat]? b
  else .error (.beforeBuffer offset) b

/-- The token at `offset` from the read point; none past the end of input. -/
def peek (offset : Int) : Parser (Option Token) := do
  fill offset
  buffered offset

/-- Does the token at `offset` answer to the kind? -/
def hasKind (k : Kind) (offset : Int) : Parser Bool := do
  return (← peek offset).any (·.answers k)

/-- Is the token at `offset` the name `s`? -/
def hasName (s : String) (offset : Int) : Parser Bool := do
  return (← peek offset).any (·.name? = some s)

/-- Takes the token at the read point, if it is buffered. -/
def shift : Parser (Option Token) := fun b =>
  match b.queue with
  | [] => .ok none b
  | t :: ts => .ok (some t) { b with queue := ts, consumed := b.consumed + 1, lastPos := some t.pos }

/-- Consumes the token at the read point; none at the end of input. -/
def pop : Parser (Option Token) := do
  fill 0
  shift

/-- Is no token left to consume? -/
def isEnd : Parser Bool := do
  fill 0
  return (← get).queue.isEmpty

/-- The buffer with more text at the end of its source. -/
def append (text : String) : Parser Unit :=
  modify fun b => { b with cursor := b.cursor.append text }

/-- A bound on the tokens that can still be consumed: the buffered ones, and one for
each character ahead. -/
def weight (b : Buffer) : Nat := b.queue.length + b.cursor.rest.length

/-! ## Steps -/

/-- What a buffer can be asked. -/
inductive Step where
  | peek (offset : Int)
  | hasKind (k : Kind) (offset : Int)
  | hasName (s : String) (offset : Int)
  | pop
  | isEnd
  | append (text : String)
deriving DecidableEq, Repr

/-- What a step answers. -/
inductive Answer where
  | token (t : Option Token)
  | flag (b : Bool)
  | done
deriving DecidableEq, Repr

/-- One step. -/
def step (b : Buffer) (s : Step) : Outcome Buffer Answer :=
  let run : Parser Answer := match s with
    | .peek offset => return .token (← peek offset)
    | .hasKind k offset => return .flag (← hasKind k offset)
    | .hasName s offset => return .flag (← hasName s offset)
    | .pop => return .token (← pop)
    | .isEnd => return .flag (← isEnd)
    | .append text => do
      append text
      return .done
  run b

end Buffer

end ExprFront
