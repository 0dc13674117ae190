import ExprFront.Proofs.Lengths
import ExprFront.Proofs.Stratified
import Mathlib.Data.List.Forall2

/-!
# Trees and their tokens

Two ways to say which tokens a tree stands for.

* `Expr.yield` lists the lexemes of a tree in order, as marks.  A mark is a lexeme, or the
  length of a range, which stands for any number equal to it.
* `Expr.Reads e ts` relates a tree to the very tokens that it was built from.  It also says
  where each node gets its position from.

The tokens that a tree reads have the lexemes that it yields (`Expr.Reads.yield`), unless a
range step was converted to nothing: such a step leaves no trace in the tree.  In the other
direction, tokens with the lexemes of a stratified tree are read by a tree that differs from
it in positions only (`Expr.Stratified.legible`).
-/

namespace ExprFront

/-! ## Marks -/

/-- What a tree says of one token. -/
inductive Mark where
  /-- The token has the lexeme. -/
  | lexeme (l : Lexeme)
  /-- The token is a number equal to the length of a range. -/
  | length (n : Nat)

namespace Mark

/-- The mark of a particle. -/
abbrev particle (p : Particle) : Mark := .lexeme (.particle p)

/-- The mark of a name. -/
abbrev name (s : String) : Mark := .lexeme (.name s)

/-- The mark of a number. -/
abbrev number (v : Value) : Mark := .lexeme (.number v)

/-- Does a lexeme bear out the mark? -/
def Matches : Mark → Lexeme → Prop
  | .lexeme l, l' => l = l'
  | .length n, .number v => v.toRat? = some (n : Rat)
  | .length _, _ => False

/-- Items with a comma between any two of them. -/
def separated : List (List Mark) → List Mark
  | [] => []
  | item :: items => item ++ items.flatMap (particle .comma :: ·)

end Mark

namespace Expr

open Mark (separated)

mutual

/-- The marks of an expression, in source order. -/
def yield : Expr → List Mark
  | number v _ => [.number v]
  | name s _ => [.name s]
  | group e _ => .particle .leftParen :: (e.yield ++ [.particle .rightParen])
  | unary op e _ => .particle op :: e.yield
  | binary op l r _ => l.yield ++ .particle op :: r.yield
  | ternary c t e _ =>
    c.yield ++ .particle .question :: (t.yield ++ .particle .colon :: e.yield)
  | call s args _ =>
    .name s :: .particle .leftBrace :: (separated (yields args) ++ [.particle .rightBrace])
  | lambda ps body _ =>
    .name Grammar.lambdaWord :: .particle .leftParen ::
      (separated (ps.map fun s => [.name s]) ++ .particle .rightParen :: body.yield)
  | list values _ =>
    .particle .leftBracket :: (separated (yields values) ++ [.particle .rightBracket])
  | range start length step _ =>
    .particle .leftBracket :: .number start :: .particle .range :: .length length ::
      ((match step with
        | some v => [.particle .semicolon, .number v]
        | none => []) ++ [.particle .rightBracket])

/-- The marks of each of several expressions. -/
def yields : List Expr → List (List Mark)
  | [] => []
  | e :: es => e.yield :: yields es

end

theorem yields_eq_map (es : List Expr) : yields es = es.map yield := by
  induction es with
  | nil => rfl
  | cons e es ih => rw [yields, ih, List.map_cons]

theorem yield_ne_nil (e : Expr) : e.yield ≠ [] := by
  cases e <;> simp [yield]

mutual

/-- The expression with every position changed by `f`. -/
def mapPos (f : Position → Position) : Expr → Expr
  | number v p => .number v (f p)
  | name s p => .name s (f p)
  | group e p => .group (e.mapPos f) (f p)
  | unary op e p => .unary op (e.mapPos f) (f p)
  | binary op l r p => .binary op (l.mapPos f) (r.mapPos f) (f p)
  | ternary c t e p => .ternary (c.mapPos f) (t.mapPos f) (e.mapPos f) (f p)
  | call s args p => .call s (mapPosEach f args) (f p)
  | lambda ps body p => .lambda ps (body.mapPos f) (f p)
  | list values p => .list (mapPosEach f values) (f p)
  | range start length step p => .range start length step (f p)

/-- Several expressions with every position changed by `f`. -/
def mapPosEach (f : Position → Position) : List Expr → List Expr
  | [] => []
  | e :: es => e.mapPos f :: mapPosEach f es

end

theorem mapPosEach_eq_map {f : Position → Position} (es : List Expr) :
    mapPosEach f es = es.map (mapPos f) := by
  induction es with
  | nil => rfl
  | cons e es ih => rw [mapPosEach, ih, List.map_cons]

mutual

theorem mapPos_id : ∀ e : Expr, e.mapPos id = e
  | number .. | name .. | range .. => rfl
  | group e _ | unary _ e _ | lambda _ e _ => by rw [mapPos, mapPos_id e, id]
  | binary _ l r _ => by rw [mapPos, mapPos_id l, mapPos_id r, id]
  | ternary c t e _ => by rw [mapPos, mapPos_id c, mapPos_id t, mapPos_id e, id]
  | call _ es _ | list es _ => by rw [mapPos, mapPosEach_id es, id]

theorem mapPosEach_id : ∀ es : List Expr, mapPosEach id es = es
  | [] => rfl
  | e :: es => by rw [mapPosEach, mapPos_id e, mapPosEach_id es]

end

/-- The expression with every position set to the origin. -/
def unplaced : Expr → Expr := mapPos fun _ => .origin

theorem rank_unplaced (e : Expr) : e.unplaced.rank = e.rank := by
  cases e <;> simp [unplaced, mapPos, rank]

theorem rank_eq_of_unplaced {e e' : Expr} (h : e'.unplaced = e.unplaced) : e'.rank = e.rank := by
  rw [← rank_unplaced e', h, rank_unplaced]

theorem endsInLambda_unplaced : ∀ e : Expr, e.unplaced.endsInLambda = e.endsInLambda
  | unary _ e _ => endsInLambda_unplaced e
  | binary _ _ r _ => endsInLambda_unplaced r
  | number .. | name .. | group .. | ternary .. | call .. | lambda .. | list .. | range .. => rfl

theorem endsInLambda_eq_of_unplaced {e e' : Expr} (h : e'.unplaced = e.unplaced) :
    e'.endsInLambda = e.endsInLambda := by
  rw [← endsInLambda_unplaced e', h, endsInLambda_unplaced]

end Expr

namespace Stmt

/-- The marks of a statement, in source order. -/
def yield : Stmt → List Mark
  | assign s e _ => .name s :: .particle .assign :: e.yield
  | expression e _ => e.yield

theorem yield_ne_nil (s : Stmt) : s.yield ≠ [] := by
  cases s with
  | assign s e pos => simp [yield]
  | expression e pos => exact e.yield_ne_nil

/-- The statement with every position changed by `f`. -/
def mapPos (f : Position → Position) : Stmt → Stmt
  | assign s e p => .assign s (e.mapPos f) (f p)
  | expression e p => .expression (e.mapPos f) (f p)

theorem mapPos_id (s : Stmt) : s.mapPos id = s := by
  cases s with
  | assign s e p => rw [mapPos, Expr.mapPos_id, id]
  | expression e p => rw [mapPos, Expr.mapPos_id, id]

/-- The statement with every position set to the origin. -/
def unplaced : Stmt → Stmt := mapPos fun _ => .origin

end Stmt

/-! ## Items between delimiters -/

section Items

variable {α : Type}

/-- Items, each after a comma. -/
inductive Following (R : α → List Token → Prop) : List α → List Token → Prop where
  | nil : Following R [] []
  | cons {x : α} {xs : List α} {comma : Token} {ts us : List Token}
      (hcomma : comma.lexeme = .particle .comma) (hx : R x ts) (tail : Following R xs us) :
      Following R (x :: xs) (comma :: (ts ++ us))

/-- Items with a comma between any two of them. -/
inductive Separated (R : α → List Token → Prop) : List α → List Token → Prop where
  | nil : Separated R [] []
  | cons {x : α} {xs : List α} {ts us : List Token} (hx : R x ts) (tail : Following R xs us) :
      Separated R (x :: xs) (ts ++ us)

variable {R S : α → List Token → Prop} {xs : List α} {ts : List Token}

theorem Following.mono (h : Following R xs ts) (hRS : ∀ x ∈ xs, ∀ us, R x us → S x us) :
    Following S xs ts := by
  induction h with
  | nil => exact .nil
  | cons hcomma hx _ ih =>
    exact .cons hcomma (hRS _ (by simp) _ hx) (ih fun y hy => hRS y (by simp [hy]))

theorem Separated.mono (h : Separated R xs ts) (hRS : ∀ x ∈ xs, ∀ us, R x us → S x us) :
    Separated S xs ts := by
  cases h with
  | nil => exact .nil
  | cons hx tail =>
    exact .cons (hRS _ (by simp) _ hx) (tail.mono fun y hy => hRS y (by simp [hy]))

theorem Following.forall_mem (h : Following R xs ts) : ∀ x ∈ xs, ∃ us, R x us := by
  induction h with
  | nil =>
    intro x hx
    cases hx
  | cons _ hx _ ih =>
    intro y hy
    rcases List.mem_cons.1 hy with rfl | hy
    · exact ⟨_, hx⟩
    · exact ih y hy

theorem Separated.forall_mem (h : Separated R xs ts) : ∀ x ∈ xs, ∃ us, R x us := by
  intro y hy
  cases h with
  | nil => cases hy
  | cons hx tail =>
    rcases List.mem_cons.1 hy with rfl | hy
    · exact ⟨_, hx⟩
    · exact tail.forall_mem y hy

end Items

/-! ## Readings -/

/-- A parameter is read from its name. -/
def ReadsParameter (s : String) (ts : List Token) : Prop := ∃ t, ts = [t] ∧ t.lexeme = .name s

/-- The tree is read from the tokens.  A node with a token of its own in front is placed
there, and any other one where its first operand is. -/
inductive Expr.Reads : Expr → List Token → Prop where
  | number {v : Value} {t : Token} (h : t.lexeme = .number v) : Reads (.number v t.pos) [t]
  | name {s : String} {t : Token} (h : t.lexeme = .name s) : Reads (.name s t.pos) [t]
  | group {inner : Expr} {opening closing : Token} {ts : List Token}
      (ho : opening.lexeme = .particle .leftParen) (hinner : Reads inner ts)
      (hc : closing.lexeme = .particle .rightParen) :
      Reads (.group inner opening.pos) (opening :: (ts ++ [closing]))
  | unary {op : Particle} {e : Expr} {t : Token} {ts : List Token}
      (ht : t.lexeme = .particle op) (he : Reads e ts) : Reads (.unary op e e.pos) (t :: ts)
  | binary {op : Particle} {l r : Expr} {t : Token} {ls rs : List Token} (hl : Reads l ls)
      (ht : t.lexeme = .particle op) (hr : Reads r rs) :
      Reads (.binary op l r l.pos) (ls ++ t :: rs)
  | ternary {c t e : Expr} {question colon : Token} {cs ts es : List Token} (hc : Reads c cs)
      (hq : question.lexeme = .particle .question) (ht : Reads t ts)
      (hk : colon.lexeme = .particle .colon) (he : Reads e es) :
      Reads (.ternary c t e c.pos) (cs ++ question :: (ts ++ colon :: es))
  | call {s : String} {args : List Expr} {word opening closing : Token} {ts : List Token}
      {R : Expr → List Token → Prop} (hw : word.lexeme = .name s)
      (ho : opening.lexeme = .particle .leftBrace) (hargs : Separated R args ts)
      (hR : ∀ e us, R e us → Reads e us) (hc : closing.lexeme = .particle .rightBrace) :
      Reads (.call s args word.pos) (word :: opening :: (ts ++ [closing]))
  | lambda {ps : List String} {body : Expr} {word opening closing : Token} {ts bs : List Token}
      (hw : word.lexeme = .name Grammar.lambdaWord)
      (ho : opening.lexeme = .particle .leftParen) (hps : Separated ReadsParameter ps ts)
      (hc : closing.lexeme = .particle .rightParen) (hbody : Reads body bs) :
      Reads (.lambda ps body word.pos) (word :: opening :: (ts ++ closing :: bs))
  | list {values : List Expr} {opening closing : Token} {ts : List Token}
      {R : Expr → List Token → Prop} (ho : opening.lexeme = .particle .leftBracket)
      (hvalues : Separated R values ts) (hR : ∀ e us, R e us → Reads e us)
      (hc : closing.lexeme = .particle .rightBracket) :
      Reads (.list values opening.pos) (opening :: (ts ++ [closing]))
  | range {start v : Value} {n : Nat} {opening first dots length closing : Token}
      (ho : opening.lexeme = .particle .leftBracket) (hf : first.lexeme = .number start)
      (hd : dots.lexeme = .particle .range) (hl : length.lexeme = .number v)
      (hv : v.whole? = some n) (hc : closing.lexeme = .particle .rightBracket) :
      Reads (.range start n none opening.pos) [opening, first, dots, length, closing]
  | rangeStep {start v w : Value} {n : Nat}
      {opening first dots length semicolon step closing : Token}
      (ho : opening.lexeme = .particle .leftBracket) (hf : first.lexeme = .number start)
      (hd : dots.lexeme = .particle .range) (hl : length.lexeme = .number v)
      (hv : v.whole? = some n) (hs : semicolon.lexeme = .particle .semicolon)
      (hw : step.lexeme = .number w) (hc : closing.lexeme = .particle .rightBracket) :
      Reads (.range start n w.present? opening.pos)
        [opening, first, dots, length, semicolon, step, closing]

/-- The statement is read from the tokens. -/
inductive Stmt.Reads : Stmt → List Token → Prop where
  | assign {s : String} {e : Expr} {target sign : Token} {ts : List Token}
      (ht : target.lexeme = .name s) (hs : sign.lexeme = .particle .assign) (he : e.Reads ts) :
      Reads (.assign s e target.pos) (target :: sign :: ts)
  | expression {e : Expr} {ts : List Token} (he : e.Reads ts) :
      Reads (.expression e e.pos) ts

/-- A stratified tree that is read from the tokens. -/
def Expr.WellRead (e : Expr) (ts : List Token) : Prop := e.Reads ts ∧ e.Stratified

theorem Expr.Reads.ne_nil {e : Expr} {ts : List Token} (h : e.Reads ts) : ts ≠ [] := by
  cases h <;> simp

theorem Stmt.Reads.ne_nil {s : Stmt} {ts : List Token} (h : s.Reads ts) : ts ≠ [] := by
  cases h with
  | assign => simp
  | expression he => exact he.ne_nil

/-! ## What is read is what is yielded -/

theorem Value.present?_of_ne_nothing {v : Value} (h : v ≠ .nothing) : v.present? = some v := by
  rw [Value.present?]
  exact h

/-- No number among the tokens was converted to nothing. -/
def Definite (ts : List Token) : Prop := ∀ t ∈ ts, t.lexeme ≠ .number .nothing

theorem Definite.of_append {ts us : List Token} (h : Definite (ts ++ us)) :
    Definite ts ∧ Definite us :=
  ⟨fun t ht => h t (List.mem_append_left _ ht), fun t ht => h t (List.mem_append_right _ ht)⟩

theorem Definite.of_cons {t : Token} {ts : List Token} (h : Definite (t :: ts)) :
    t.lexeme ≠ .number .nothing ∧ Definite ts :=
  ⟨h t (by simp), fun u hu => h u (by simp [hu])⟩

/-- The tokens have the lexemes that the marks ask for. -/
abbrev Spelled (marks : List Mark) (ts : List Token) : Prop :=
  List.Forall₂ (fun m t => m.Matches t.lexeme) marks ts

theorem Spelled.append {ms ns : List Mark} {ts us : List Token} (h : Spelled ms ts)
    (h' : Spelled ns us) : Spelled (ms ++ ns) (ts ++ us) := List.rel_append h h'

theorem spelled_singleton {m : Mark} {t : Token} (h : m.Matches t.lexeme) : Spelled [m] [t] :=
  .cons h .nil

section Items

variable {α : Type} {marks : α → List Mark}

/-- What is read of an item, provided that its tokens are definite, is what it yields. -/
theorem Following.spelled {R : α → List Token → Prop}
    (hR : ∀ x us, R x us → Definite us → Spelled (marks x) us) {xs : List α} {ts : List Token}
    (h : Following R xs ts) (hts : Definite ts) :
    Spelled ((xs.map marks).flatMap (.particle .comma :: ·)) ts := by
  induction h with
  | nil => exact .nil
  | @cons x xs comma ts us hcomma hx tail ih =>
    obtain ⟨-, hts⟩ := hts.of_cons
    obtain ⟨hts, hus⟩ := hts.of_append
    exact .cons hcomma.symm ((hR _ _ hx hts).append (ih hus))

theorem Separated.spelled {R : α → List Token → Prop}
    (hR : ∀ x us, R x us → Definite us → Spelled (marks x) us) {xs : List α} {ts : List Token}
    (h : Separated R xs ts) (hts : Definite ts) :
    Spelled (Mark.separated (xs.map marks)) ts := by
  cases h with
  | nil => exact .nil
  | cons hx tail =>
    obtain ⟨hts, hus⟩ := hts.of_append
    exact (hR _ _ hx hts).append (tail.spelled hR hus)

end Items

/-- The tokens that an expression reads have the lexemes that it yields. -/
theorem Expr.Reads.yield {e : Expr} {ts : List Token} (h : e.Reads ts) (hts : Definite ts) :
    Spelled e.yield ts := by
  induction h with
  | number h => exact spelled_singleton h.symm
  | name h => exact spelled_singleton h.symm
  | group ho _ hc ih =>
    obtain ⟨hts, -⟩ := hts.of_cons.2.of_append
    exact .cons ho.symm ((ih hts).append (spelled_singleton hc.symm))
  | unary ht _ ih => exact .cons ht.symm (ih hts.of_cons.2)
  | binary _ ht _ ihl ihr =>
    obtain ⟨hls, hrs⟩ := hts.of_append
    exact (ihl hls).append (.cons ht.symm (ihr hrs.of_cons.2))
  | ternary _ hq _ hk _ ihc iht ihe =>
    obtain ⟨hcs, hrest⟩ := hts.of_append
    obtain ⟨hts, hes⟩ := hrest.of_cons.2.of_append
    exact (ihc hcs).append (.cons hq.symm ((iht hts).append (.cons hk.symm (ihe hes.of_cons.2))))
  | call hw ho hargs _ hc ih =>
    obtain ⟨hts, -⟩ := hts.of_cons.2.of_cons.2.of_append
    rw [Expr.yield, yields_eq_map]
    exact .cons hw.symm (.cons ho.symm ((hargs.spelled ih hts).append (spelled_singleton hc.symm)))
  | lambda hw ho hps hc _ ih =>
    obtain ⟨hts, hbs⟩ := hts.of_cons.2.of_cons.2.of_append
    have hparameter : ∀ s us, ReadsParameter s us → Definite us → Spelled [Mark.name s] us := by
      rintro s us ⟨t, rfl, ht⟩ -
      exact spelled_singleton ht.symm
    exact .cons hw.symm (.cons ho.symm
      ((hps.spelled hparameter hts).append (.cons hc.symm (ih hbs.of_cons.2))))
  | list ho hvalues _ hc ih =>
    obtain ⟨hts, -⟩ := hts.of_cons.2.of_append
    rw [Expr.yield, yields_eq_map]
    exact .cons ho.symm ((hvalues.spelled ih hts).append (spelled_singleton hc.symm))
  | range ho hf hd hl hv hc =>
    refine .cons ho.symm (.cons hf.symm (.cons hd.symm (.cons ?_ (spelled_singleton hc.symm))))
    rw [hl]
    exact Value.whole?_eq_some_iff.1 hv
  | @rangeStep _ _ w _ _ _ _ _ _ step _ ho hf hd hl hv hs hw hc =>
    have hne : w ≠ .nothing := by
      rintro rfl
      exact hts step (by simp) hw
    rw [Value.present?_of_ne_nothing hne]
    refine .cons ho.symm (.cons hf.symm (.cons hd.symm (.cons ?_ (.cons hs.symm
      (.cons hw.symm (spelled_singleton hc.symm))))))
    rw [hl]
    exact Value.whole?_eq_some_iff.1 hv

/-- The tokens that a statement reads have the lexemes that it yields. -/
theorem Stmt.Reads.yield {s : Stmt} {ts : List Token} (h : s.Reads ts) (hts : Definite ts) :
    Spelled s.yield ts := by
  cases h with
  | assign ht hs he => exact .cons ht.symm (.cons hs.symm (he.yield hts.of_cons.2.of_cons.2))
  | expression he => exact he.yield hts

/-! ## What is yielded can be read -/

theorem Spelled.of_cons {m : Mark} {ms : List Mark} {ts : List Token}
    (h : Spelled (m :: ms) ts) :
    ∃ t us, ts = t :: us ∧ m.Matches t.lexeme ∧ Spelled ms us := by
  cases h with
  | cons hm tail => exact ⟨_, _, rfl, hm, tail⟩

theorem Spelled.of_singleton {m : Mark} {ts : List Token} (h : Spelled [m] ts) :
    ∃ t, ts = [t] ∧ m.Matches t.lexeme := by
  obtain ⟨t, us, rfl, hm, hus⟩ := h.of_cons
  cases hus
  exact ⟨t, rfl, hm⟩

theorem Spelled.of_append {ms ns : List Mark} {ts : List Token} (h : Spelled (ms ++ ns) ts) :
    ∃ us vs, ts = us ++ vs ∧ Spelled ms us ∧ Spelled ns vs := by
  induction ms generalizing ts with
  | nil => exact ⟨[], ts, rfl, .nil, h⟩
  | cons m ms ih =>
    obtain ⟨t, ts, rfl, hm, htail⟩ := Spelled.of_cons h
    obtain ⟨us, vs, rfl, hus, hvs⟩ := ih htail
    exact ⟨t :: us, vs, rfl, .cons hm hus, hvs⟩

theorem Mark.exists_of_matches_length {n : Nat} {l : Lexeme} (h : (Mark.length n).Matches l) :
    ∃ v, l = .number v ∧ v.whole? = some n := by
  cases l with
  | number v => exact ⟨v, rfl, Value.whole?_eq_some_iff.2 h⟩
  | name | particle | skip | endOfInput => exact h.elim

section Items

variable {α β : Type} {marks : α → List Mark} {R : α → List Token → Prop} {f : α → β}

/-- If each item can be read from the tokens that spell it, up to what `f` forgets, then so
can the items together. -/
theorem Following.of_spelled {xs : List α}
    (hR : ∀ x ∈ xs, ∀ us, Spelled (marks x) us → Definite us → ∃ y, R y us ∧ f y = f x)
    {ts : List Token} (h : Spelled ((xs.map marks).flatMap (.particle .comma :: ·)) ts)
    (hts : Definite ts) : ∃ ys, Following R ys ts ∧ ys.map f = xs.map f := by
  induction xs generalizing ts with
  | nil =>
    cases h
    exact ⟨[], .nil, rfl⟩
  | cons x xs ih =>
    obtain ⟨comma, ts, rfl, hcomma, h⟩ := Spelled.of_cons h
    obtain ⟨us, vs, rfl, hus, hvs⟩ := Spelled.of_append h
    obtain ⟨husd, hvsd⟩ := hts.of_cons.2.of_append
    obtain ⟨y, hy, hxy⟩ := hR x (by simp) us hus husd
    obtain ⟨ys, hys, hxys⟩ := ih (fun z hz => hR z (by simp [hz])) hvs hvsd
    refine ⟨y :: ys, .cons hcomma.symm hy hys, ?_⟩
    rw [List.map_cons, List.map_cons, hxy, hxys]

theorem Separated.of_spelled {xs : List α}
    (hR : ∀ x ∈ xs, ∀ us, Spelled (marks x) us → Definite us → ∃ y, R y us ∧ f y = f x)
    {ts : List Token} (h : Spelled (Mark.separated (xs.map marks)) ts) (hts : Definite ts) :
    ∃ ys, Separated R ys ts ∧ ys.map f = xs.map f := by
  cases xs with
  | nil =>
    cases h
    exact ⟨[], .nil, rfl⟩
  | cons x xs =>
    obtain ⟨us, vs, rfl, hus, hvs⟩ := Spelled.of_append h
    obtain ⟨husd, hvsd⟩ := hts.of_append
    obtain ⟨y, hy, hxy⟩ := hR x (by simp) us hus husd
    obtain ⟨ys, hys, hxys⟩ := Following.of_spelled (fun z hz => hR z (by simp [hz])) hvs hvsd
    refine ⟨y :: ys, .cons hy hys, ?_⟩
    rw [List.map_cons, List.map_cons, hxy, hxys]

end Items

theorem Separated.reads {es : List Expr} {ts : List Token} (h : Separated Expr.WellRead es ts) :
    Separated Expr.Reads es ts := h.mono fun _ _ _ he => he.1

theorem Separated.wellRead {R : Expr → List Token → Prop} {es : List Expr} {ts : List Token}
    (h : Separated R es ts) (hR : ∀ e us, R e us → e.Reads us) (hes : ∀ e ∈ es, e.Stratified) :
    Separated Expr.WellRead es ts :=
  h.mono fun e he us hus => ⟨hR e us hus, hes e he⟩

theorem Separated.stratified {es : List Expr} {ts : List Token}
    (h : Separated Expr.WellRead es ts) : ∀ e ∈ es, e.Stratified := by
  intro e he
  obtain ⟨us, hus⟩ := h.forall_mem e he
  exact hus.2

/-- Tokens with the lexemes of the tree are read by a stratified tree that differs from it in
positions only. -/
def Expr.Legible (e : Expr) : Prop :=
  ∀ ts, Spelled e.yield ts → Definite ts → ∃ e' : Expr, e'.WellRead ts ∧ e'.unplaced = e.unplaced

/-- Marks between two delimiters. -/
theorem Spelled.of_enclosed {m m' : Mark} {ms : List Mark} {ts : List Token}
    (h : Spelled (m :: (ms ++ [m'])) ts) (hts : Definite ts) :
    ∃ opening us closing, ts = opening :: (us ++ [closing]) ∧ m.Matches opening.lexeme ∧
      Spelled ms us ∧ m'.Matches closing.lexeme ∧ Definite us := by
  obtain ⟨opening, ts, rfl, ho, h⟩ := Spelled.of_cons h
  obtain ⟨us, vs, rfl, hus, hvs⟩ := Spelled.of_append h
  obtain ⟨closing, rfl, hc⟩ := Spelled.of_singleton hvs
  exact ⟨opening, us, closing, rfl, ho, hus, hc, hts.of_cons.2.of_append.1⟩

namespace Expr.Legible

variable {pos : Position}

theorem number (v : Value) (pos : Position) : Legible (.number v pos) := by
  intro ts hts _
  obtain ⟨t, rfl, ht⟩ := Spelled.of_singleton hts
  exact ⟨.number v t.pos, ⟨.number ht.symm, .number v _⟩, rfl⟩

theorem name (s : String) (pos : Position) : Legible (.name s pos) := by
  intro ts hts _
  obtain ⟨t, rfl, ht⟩ := Spelled.of_singleton hts
  exact ⟨.name s t.pos, ⟨.name ht.symm, .name s _⟩, rfl⟩

theorem group {inner : Expr} (hinner : inner.Legible) : Legible (.group inner pos) := by
  intro ts hts hd
  obtain ⟨opening, us, closing, rfl, ho, hus, hc, hud⟩ := Spelled.of_enclosed hts hd
  obtain ⟨inner', hinner', he⟩ := hinner us hus hud
  refine ⟨.group inner' opening.pos, ⟨.group ho.symm hinner'.1 hc.symm, .group hinner'.2⟩, ?_⟩
  rw [unplaced] at he ⊢
  rw [mapPos, mapPos, he]

theorem unary {op : Particle} {e : Expr} (hop : op ∈ Grammar.unaryOperators)
    (hrank : unaryRank ≤ e.rank) (he : e.Legible) : Legible (.unary op e pos) := by
  intro ts hts hd
  obtain ⟨t, ts, rfl, ht, hts⟩ := Spelled.of_cons hts
  obtain ⟨e', he', hsame⟩ := he ts hts hd.of_cons.2
  rw [← rank_eq_of_unplaced hsame] at hrank
  refine ⟨.unary op e' e'.pos, ⟨.unary ht.symm he'.1, .unary hop hrank he'.2⟩, ?_⟩
  rw [unplaced] at hsame ⊢
  rw [mapPos, mapPos, hsame]

theorem binary {op : Particle} {l r : Expr} (t : Tier) (hop : op ∈ t.operators)
    (hleft : t.rank ≤ l.rank) (hright : t.rank < r.rank) (hend : l.endsInLambda = false)
    (hl : l.Legible) (hr : r.Legible) : Legible (.binary op l r pos) := by
  intro ts hts hd
  obtain ⟨us, vs, rfl, hus, hvs⟩ := Spelled.of_append hts
  obtain ⟨sign, vs, rfl, hs, hvs⟩ := Spelled.of_cons hvs
  obtain ⟨hud, hvd⟩ := hd.of_append
  obtain ⟨l', hl', hle⟩ := hl us hus hud
  obtain ⟨r', hr', hre⟩ := hr vs hvs hvd.of_cons.2
  rw [← rank_eq_of_unplaced hle] at hleft
  rw [← rank_eq_of_unplaced hre] at hright
  rw [← endsInLambda_eq_of_unplaced hle] at hend
  refine ⟨.binary op l' r' l'.pos,
    ⟨.binary hl'.1 hs.symm hr'.1, .binary t hop hleft hright hend hl'.2 hr'.2⟩, ?_⟩
  rw [unplaced] at hle hre ⊢
  rw [mapPos, mapPos, hle, hre]

theorem ternary {c t e : Expr} (hrank : Tier.equality.rank ≤ c.rank)
    (hend : c.endsInLambda = false) (hc : c.Legible) (ht : t.Legible) (he : e.Legible) :
    Legible (.ternary c t e pos) := by
  intro ts hts hd
  obtain ⟨cs, vs, rfl, hcs, hvs⟩ := Spelled.of_append hts
  obtain ⟨question, vs, rfl, hq, hvs⟩ := Spelled.of_cons hvs
  obtain ⟨us, vs, rfl, hus, hvs⟩ := Spelled.of_append hvs
  obtain ⟨colon, es, rfl, hk, hes⟩ := Spelled.of_cons hvs
  obtain ⟨hcd, hrest⟩ := hd.of_append
  obtain ⟨hud, hed⟩ := hrest.of_cons.2.of_append
  obtain ⟨c', hc', hce⟩ := hc cs hcs hcd
  obtain ⟨t', ht', hte⟩ := ht us hus hud
  obtain ⟨e', he', hee⟩ := he es hes hed.of_cons.2
  rw [← rank_eq_of_unplaced hce] at hrank
  rw [← endsInLambda_eq_of_unplaced hce] at hend
  refine ⟨.ternary c' t' e' c'.pos, ⟨.ternary hc'.1 hq.symm ht'.1 hk.symm he'.1,
    .ternary hrank hend hc'.2 ht'.2 he'.2⟩, ?_⟩
  rw [unplaced] at hce hte hee ⊢
  rw [mapPos, mapPos, hce, hte, hee]

theorem call {s : String} {args : List Expr} (hargs : ∀ a ∈ args, a.Legible) :
    Legible (.call s args pos) := by
  intro ts hts hd
  rw [Expr.yield, yields_eq_map] at hts
  obtain ⟨word, ts, rfl, hw, hts⟩ := Spelled.of_cons hts
  obtain ⟨opening, us, closing, rfl, ho, hus, hc, hud⟩ := Spelled.of_enclosed hts hd.of_cons.2
  obtain ⟨args', hargs', he⟩ := Separated.of_spelled hargs hus hud
  refine ⟨.call s args' word.pos, ⟨.call hw.symm ho.symm hargs'.reads (fun _ _ h => h) hc.symm,
    .call hargs'.stratified⟩, ?_⟩
  rw [unplaced] at he ⊢
  rw [mapPos, mapPos, mapPosEach_eq_map, mapPosEach_eq_map, he]

theorem lambda {ps : List String} {body : Expr} (hbody : body.Legible) :
    Legible (.lambda ps body pos) := by
  intro ts hts hd
  obtain ⟨word, ts, rfl, hw, hts⟩ := Spelled.of_cons hts
  obtain ⟨opening, ts, rfl, ho, hts⟩ := Spelled.of_cons hts
  obtain ⟨us, vs, rfl, hus, hvs⟩ := Spelled.of_append hts
  obtain ⟨closing, bs, rfl, hc, hbs⟩ := Spelled.of_cons hvs
  obtain ⟨hud, hbd⟩ := hd.of_cons.2.of_cons.2.of_append
  have hparameter : ∀ s ∈ ps, ∀ us, Spelled [Mark.name s] us → Definite us →
      ∃ s', ReadsParameter s' us ∧ id s' = id s := by
    intro s _ us hus _
    obtain ⟨t, rfl, ht⟩ := hus.of_singleton
    exact ⟨s, ⟨t, rfl, ht.symm⟩, rfl⟩
  obtain ⟨ps', hps, hpe⟩ := Separated.of_spelled hparameter hus hud
  obtain ⟨body', hbody', he⟩ := hbody bs hbs hbd.of_cons.2
  rw [List.map_id, List.map_id] at hpe
  subst hpe
  refine ⟨.lambda ps' body' word.pos, ⟨.lambda hw.symm ho.symm hps hc.symm hbody'.1,
    .lambda hbody'.2⟩, ?_⟩
  rw [unplaced] at he ⊢
  rw [mapPos, mapPos, he]

theorem list {values : List Expr} (hvalues : ∀ v ∈ values, v.Legible) :
    Legible (.list values pos) := by
  intro ts hts hd
  rw [Expr.yield, yields_eq_map] at hts
  obtain ⟨opening, us, closing, rfl, ho, hus, hc, hud⟩ := Spelled.of_enclosed hts hd
  obtain ⟨values', hvalues', he⟩ := Separated.of_spelled hvalues hus hud
  refine ⟨.list values' opening.pos, ⟨.list ho.symm hvalues'.reads (fun _ _ h => h) hc.symm,
    .list hvalues'.stratified⟩, ?_⟩
  rw [unplaced] at he ⊢
  rw [mapPos, mapPos, mapPosEach_eq_map, mapPosEach_eq_map, he]

theorem range (start : Value) (length : Nat) (step : Option Value) (pos : Position) :
    Legible (.range start length step pos) := by
  intro ts hts hd
  obtain ⟨opening, ts, rfl, ho, hts⟩ := Spelled.of_cons hts
  obtain ⟨first, ts, rfl, hf, hts⟩ := Spelled.of_cons hts
  obtain ⟨dots, ts, rfl, hdots, hts⟩ := Spelled.of_cons hts
  obtain ⟨len, ts, rfl, hl, hts⟩ := Spelled.of_cons hts
  obtain ⟨v, hl, hv⟩ := Mark.exists_of_matches_length hl
  cases step with
  | none =>
    obtain ⟨closing, rfl, hc⟩ := Spelled.of_singleton hts
    exact ⟨.range start length none opening.pos,
      ⟨.range ho.symm hf.symm hdots.symm hl hv hc.symm, .range ..⟩, rfl⟩
  | some w =>
    obtain ⟨semicolon, ts, rfl, hs, hts⟩ := Spelled.of_cons hts
    obtain ⟨stepToken, ts, rfl, hw, hts⟩ := Spelled.of_cons hts
    obtain ⟨closing, rfl, hc⟩ := Spelled.of_singleton hts
    have hne : w ≠ .nothing := by
      rintro rfl
      exact hd stepToken (by simp) hw.symm
    refine ⟨.range start length w.present? opening.pos,
      ⟨.rangeStep ho.symm hf.symm hdots.symm hl hv hs.symm hw.symm hc.symm, .range ..⟩, ?_⟩
    rw [Value.present?_of_ne_nothing hne]
    rfl

end Expr.Legible

/-- Every stratified tree is legible. -/
theorem Expr.Stratified.legible {e : Expr} (h : e.Stratified) : e.Legible := by
  induction h with
  | number v pos => exact .number v pos
  | name s pos => exact .name s pos
  | group _ ih => exact .group ih
  | unary hop hrank _ ih => exact .unary hop hrank ih
  | binary t hop hleft hright hend _ _ ihl ihr => exact .binary t hop hleft hright hend ihl ihr
  | ternary hrank hend _ _ _ ihc iht ihe => exact .ternary hrank hend ihc iht ihe
  | call _ ih => exact .call ih
  | lambda _ ih => exact .lambda ih
  | list _ ih => exact .list ih
  | range start length step pos => exact .range start length step pos

theorem Stmt.Stratified.exists_reads {s : Stmt} (h : s.Stratified) {ts : List Token}
    (hts : Spelled s.yield ts) (hd : Definite ts) :
    ∃ s' : Stmt, s'.Reads ts ∧ s'.Stratified ∧ s'.unplaced = s.unplaced := by
  cases s with
  | assign s e pos =>
    obtain ⟨target, ts, rfl, ht, hts⟩ := Spelled.of_cons hts
    obtain ⟨sign, ts, rfl, hs, hts⟩ := Spelled.of_cons hts
    obtain ⟨e', he', he⟩ := Expr.Stratified.legible (e := e) h ts hts hd.of_cons.2.of_cons.2
    refine ⟨.assign s e' target.pos, .assign ht.symm hs.symm he'.1, he'.2, ?_⟩
    rw [Expr.unplaced] at he
    rw [unplaced, mapPos, mapPos, he]
  | expression e pos =>
    obtain ⟨e', he', he⟩ := Expr.Stratified.legible (e := e) h ts hts hd
    refine ⟨.expression e' e'.pos, .expression he'.1, he'.2, ?_⟩
    rw [Expr.unplaced] at he
    rw [unplaced, mapPos, mapPos, he]

end ExprFront
