import ExprFront.Grammar

/-!
# Stratified trees

Which trees the grammar can build, said of the tree alone.  Every expression has a rank:
a choice is the loosest, then come the five tiers of operators, then the operators before
an operand, and everything else is the tightest.  In a stratified tree an operand is never
looser than its place allows.

There is one more condition.  The body of a function goes on as far as it can, so nothing
that ends in a function can be followed by an operator: no left operand and no condition
ends in a function.
-/

namespace ExprFront

/-- The rank of a tier; looser tiers have lower ranks. -/
def Tier.rank : Tier → Nat
  | equality => 1
  | comparison => 2
  | logic => 3
  | term => 4
  | factor => 5

/-- The tier of an operator that stands between its operands. -/
def Tier.ofOperator? : Particle → Option Tier
  | .equal | .notEqual => some equality
  | .greaterThan | .lessThan | .greaterEqual | .lessEqual | .logicalAnd | .logicalOr =>
    some comparison
  | .bitAnd | .bitOr => some logic
  | .plus | .minus => some term
  | .multiply | .divide | .modulo => some factor
  | _ => none

theorem Tier.ofOperator?_eq_some_iff {op : Particle} {t : Tier} :
    Tier.ofOperator? op = some t ↔ op ∈ t.operators := by
  cases t <;> cases op <;> decide

theorem Tier.notMem_operators {p : Particle} (h : Tier.ofOperator? p = none) (t : Tier) :
    p ∉ t.operators := by
  intro hp
  rw [Tier.ofOperator?_eq_some_iff.2 hp] at h
  cases h

theorem Tier.rank_pos (t : Tier) : 0 < t.rank := by cases t <;> decide

theorem Tier.rank_le (t : Tier) : t.rank ≤ 5 := by cases t <;> decide

theorem Tier.rank_injective {t u : Tier} (h : t.rank = u.rank) : t = u := by
  revert h
  cases t <;> cases u <;> decide

namespace Expr

/-- The rank of an operator before its operand. -/
def unaryRank : Nat := 6

/-- The rank of everything that needs no parentheses. -/
def primaryRank : Nat := 7

/-- The rank of an expression.  What joins its operands with something that is no operator
of any tier counts as loosest. -/
def rank : Expr → Nat
  | ternary .. => 0
  | binary op .. => (Tier.ofOperator? op).elim 0 Tier.rank
  | unary .. => unaryRank
  | number .. | name .. | group .. | call .. | lambda .. | list .. | range .. => primaryRank

theorem rank_binary {op : Particle} {t : Tier} (h : op ∈ t.operators) (l r : Expr)
    (pos : Position) : (binary op l r pos).rank = t.rank := by
  rw [rank, Tier.ofOperator?_eq_some_iff.2 h]
  rfl

/-- Does the expression end in a function, along right operands and operands of operators
before them? -/
def endsInLambda : Expr → Bool
  | lambda .. => true
  | unary _ e _ => e.endsInLambda
  | binary _ _ r _ => r.endsInLambda
  | number .. | name .. | group .. | ternary .. | call .. | list .. | range .. => false

/-- Every operand in the tree, at any depth, is as tight as its place demands. -/
inductive Stratified : Expr → Prop where
  | number (v : Value) (pos : Position) : Stratified (.number v pos)
  | name (s : String) (pos : Position) : Stratified (.name s pos)
  | group {inner : Expr} {pos : Position} (hinner : Stratified inner) :
      Stratified (.group inner pos)
  /-- An operator before an operand that is no looser. -/
  | unary {op : Particle} {e : Expr} {pos : Position} (hop : op ∈ Grammar.unaryOperators)
      (hrank : unaryRank ≤ e.rank) (he : Stratified e) : Stratified (.unary op e pos)
  /-- An operator of a tier; its left operand is no looser, its right operand is tighter. -/
  | binary {op : Particle} {l r : Expr} {pos : Position} (t : Tier) (hop : op ∈ t.operators)
      (hleft : t.rank ≤ l.rank) (hright : t.rank < r.rank) (hend : l.endsInLambda = false)
      (hl : Stratified l) (hr : Stratified r) : Stratified (.binary op l r pos)
  /-- A choice; its condition is no choice. -/
  | ternary {c t e : Expr} {pos : Position} (hrank : Tier.equality.rank ≤ c.rank)
      (hend : c.endsInLambda = false) (hc : Stratified c) (ht : Stratified t)
      (he : Stratified e) : Stratified (.ternary c t e pos)
  | call {s : String} {args : List Expr} {pos : Position} (hargs : ∀ a ∈ args, Stratified a) :
      Stratified (.call s args pos)
  | lambda {ps : List String} {body : Expr} {pos : Position} (hbody : Stratified body) :
      Stratified (.lambda ps body pos)
  | list {values : List Expr} {pos : Position} (hvalues : ∀ v ∈ values, Stratified v) :
      Stratified (.list values pos)
  | range (start : Value) (length : Nat) (step : Option Value) (pos : Position) :
      Stratified (.range start length step pos)

/-! ## The rank of a stratified expression decides its form -/

namespace Stratified

theorem rank_lt_of_binary {op : Particle} {l r : Expr} {pos : Position}
    (h : Stratified (.binary op l r pos)) : (Expr.binary op l r pos).rank < unaryRank := by
  cases h with
  | binary t hop =>
    rw [rank_binary hop]
    exact Nat.lt_succ_of_le t.rank_le

theorem exists_unary_of_rank {e : Expr} (h : Stratified e) (hrank : e.rank = unaryRank) :
    ∃ op operand pos, e = .unary op operand pos := by
  cases e with
  | unary op operand pos => exact ⟨op, operand, pos, rfl⟩
  | binary op l r pos => exact absurd hrank (Nat.ne_of_lt h.rank_lt_of_binary)
  | number | name | group | ternary | call | lambda | list | range => cases hrank

theorem exists_binary_of_rank {e : Expr} (h : Stratified e) {t : Tier} (hrank : e.rank = t.rank) :
    ∃ op l r pos, e = .binary op l r pos ∧ op ∈ t.operators := by
  have hpos := t.rank_pos
  have hle := t.rank_le
  cases h with
  | binary u hop =>
    rw [rank_binary hop] at hrank
    exact ⟨_, _, _, _, rfl, Tier.rank_injective hrank ▸ hop⟩
  | ternary =>
    change 0 = t.rank at hrank
    omega
  | unary =>
    change 6 = t.rank at hrank
    omega
  | number | name | group | call | lambda | list | range =>
    change 7 = t.rank at hrank
    omega

theorem exists_ternary_of_rank {e : Expr} (h : Stratified e) (hrank : e.rank = 0) :
    ∃ c t other pos, e = .ternary c t other pos := by
  cases h with
  | ternary => exact ⟨_, _, _, _, rfl⟩
  | binary u hop =>
    rw [rank_binary hop] at hrank
    have := u.rank_pos
    omega
  | number | name | group | unary | call | lambda | list | range => cases hrank

end Stratified

end Expr

/-- The expression of a statement. -/
def Stmt.body : Stmt → Expr
  | assign _ e _ | expression e _ => e

/-- A statement whose expression is stratified. -/
def Stmt.Stratified (s : Stmt) : Prop := s.body.Stratified

end ExprFront
