import ExprFront.Proofs.Coordinates
import ExprFront.Proofs.Soundness
import ExprFront.Tree

/-!
# Nodes stand where their anchors do

Every node of a tree is anchored to one token.  Most nodes are anchored to their first token,
an operation to the anchor of its first operand.  This module shows that the position of a
node is the position of its anchor, which is its true coordinate in the source, and that the
nodes right below a node stand in the order of the source.

* `Expr.anchor` counts the tokens of a node before its anchor.  The anchor's position is the
  node's position (`Expr.Reads.anchor`).
* `Expr.Within` relates a tree to the nodes in it.  Each of them is read from a span of the
  tokens of the tree (`Expr.Reads.within`).
* `InOrder` says that positions grow along tokens, as they do in a source.  Then they grow
  along the children of a node as well (`Expr.Reads.children_inOrder`).

Main result: `parseProgram_anchored`.
-/

namespace ExprFront

/-! ## Anchors -/

namespace Expr

/-- The number of tokens of the expression before the one that it is anchored to: as many as
operators stand before its first operand. -/
def anchor : Expr → Nat
  | unary _ e _ => e.anchor + 1
  | binary _ l _ _ => l.anchor
  | ternary c _ _ _ => c.anchor
  | number .. | name .. | group .. | call .. | lambda .. | list .. | range .. => 0

/-- The expressions right below the root, in source order. -/
def children : Expr → List Expr
  | number .. | name .. | range .. => []
  | group e _ | unary _ e _ | lambda _ e _ => [e]
  | binary _ l r _ => [l, r]
  | ternary c t e _ => [c, t, e]
  | call _ es _ | list es _ => es

/-- The first expression is a node of the second one: its root, or a node of a child. -/
inductive Within (e : Expr) : Expr → Prop where
  | root : Within e e
  | child {d e' : Expr} (hd : d ∈ e'.children) (h : Within e d) : Within e e'

theorem toTrees_eq_map (es : List Expr) : toTrees es = es.map toTree := by
  induction es with
  | nil => rfl
  | cons e es ih => rw [toTrees, ih, List.map_cons]

theorem pos_toTree (e : Expr) : e.toTree.pos = e.pos := by
  cases e <;> rfl

theorem isNode_toTree (e : Expr) : e.toTree.label.isNode = true := by
  cases e <;> rfl

theorem children_toTree (e : Expr) : e.toTree.children = e.children.map toTree := by
  have hnodes : ∀ es : List Expr,
      (es.map toTree).filter (·.label.isNode) = es.map toTree := by
    intro es
    rw [List.filter_eq_self]
    intro t ht
    obtain ⟨e, -, rfl⟩ := List.mem_map.1 ht
    exact e.isNode_toTree
  cases e with
  | number | name | range => rfl
  | group e | unary _ e | lambda _ e => exact hnodes [e]
  | binary _ l r => exact hnodes [l, r]
  | ternary c t e => exact hnodes [c, t, e]
  | call _ es | list es =>
    rw [toTree, toTrees_eq_map]
    exact hnodes es

theorem map_pos_children (e : Expr) :
    e.toTree.children.map Tree.pos = e.children.map Expr.pos := by
  rw [children_toTree, List.map_map]
  exact List.map_congr_left fun d _ => d.pos_toTree

end Expr

/-- The only node right below a statement is its expression. -/
theorem Stmt.children_toTree (s : Stmt) : s.toTree.children = [s.body.toTree] := by
  cases s with
  | assign s e p => exact List.filter_eq_self.2 (by simp [e.isNode_toTree])
  | expression e p => exact List.filter_eq_self.2 (by simp [e.isNode_toTree])

/-- The number of tokens of the statement before the one that it is anchored to. -/
def Stmt.anchor : Stmt → Nat
  | assign .. => 0
  | expression e _ => e.anchor

/-- A node is placed where its anchor is. -/
theorem Expr.Reads.anchor {e : Expr} {us : List Token} (h : e.Reads us) :
    ∃ t, us[e.anchor]? = some t ∧ e.pos = t.pos := by
  -- The first tokens of a list are those of a longer one.
  have hfront : ∀ {us vs : List Token} {k : Nat} {t : Token}, us[k]? = some t →
      (us ++ vs)[k]? = some t := by
    intro us vs k t hk
    rw [List.getElem?_append_left (List.getElem?_eq_some_iff.1 hk).1, hk]
  induction h with
  | number | name | group | call | lambda | list | range | rangeStep => exact ⟨_, rfl, rfl⟩
  | unary _ _ ih =>
    obtain ⟨t, ht, hpos⟩ := ih
    exact ⟨t, ht, hpos⟩
  | binary _ _ _ ihl =>
    obtain ⟨t, ht, hpos⟩ := ihl
    exact ⟨t, hfront ht, hpos⟩
  | ternary _ _ _ _ _ ihc =>
    obtain ⟨t, ht, hpos⟩ := ihc
    exact ⟨t, hfront ht, hpos⟩

theorem Stmt.Reads.anchor {s : Stmt} {us : List Token} (h : s.Reads us) :
    ∃ t, us[s.anchor]? = some t ∧ s.pos = t.pos := by
  cases h with
  | assign => exact ⟨_, rfl, rfl⟩
  | expression he => exact he.anchor

theorem Expr.Reads.exists_mem {e : Expr} {us : List Token} (h : e.Reads us) :
    ∃ t ∈ us, e.pos = t.pos := by
  obtain ⟨t, ht, hpos⟩ := h.anchor
  exact ⟨t, List.mem_of_getElem? ht, hpos⟩

theorem Stmt.Reads.exists_mem {s : Stmt} {us : List Token} (h : s.Reads us) :
    ∃ t ∈ us, s.pos = t.pos := by
  obtain ⟨t, ht, hpos⟩ := h.anchor
  exact ⟨t, List.mem_of_getElem? ht, hpos⟩

/-! ## Spans -/

section Items

variable {α : Type} {R : α → List Token → Prop} {xs : List α} {ts : List Token}

theorem Following.exists_span (h : Following R xs ts) :
    ∀ x ∈ xs, ∃ us, us <:+: ts ∧ R x us := by
  induction h with
  | nil => simp
  | @cons x xs comma ts us hcomma hx _ ih =>
    intro y hy
    rcases List.mem_cons.1 hy with rfl | hy
    · exact ⟨ts, ⟨[comma], us, by simp⟩, hx⟩
    · obtain ⟨vs, hvs, hR⟩ := ih y hy
      refine ⟨vs, hvs.trans ?_, hR⟩
      exact (List.suffix_append (comma :: ts) us).isInfix

/-- Each item is read from a span of the tokens of all items. -/
theorem Separated.exists_span (h : Separated R xs ts) :
    ∀ x ∈ xs, ∃ us, us <:+: ts ∧ R x us := by
  intro y hy
  cases h with
  | nil => cases hy
  | @cons x xs ts us hx tail =>
    rcases List.mem_cons.1 hy with rfl | hy
    · exact ⟨ts, (List.prefix_append ts us).isInfix, hx⟩
    · obtain ⟨vs, hvs, hR⟩ := tail.exists_span y hy
      exact ⟨vs, hvs.trans (List.suffix_append ts us).isInfix, hR⟩

end Items

/-- Each child of a node is read from a span of the tokens of the node. -/
theorem Expr.Reads.child {e : Expr} {us : List Token} (h : e.Reads us) :
    ∀ d ∈ e.children, ∃ vs, vs <:+: us ∧ d.Reads vs := by
  intro d hd
  cases h with
  | number | name | range | rangeStep => cases hd
  | @group inner opening closing ts _ hinner =>
    cases List.mem_singleton.1 hd
    exact ⟨ts, ⟨[opening], [closing], by simp⟩, hinner⟩
  | @unary op e t ts _ he =>
    cases List.mem_singleton.1 hd
    exact ⟨ts, (List.suffix_cons t ts).isInfix, he⟩
  | @binary op l r t ls rs hl _ hr =>
    rcases List.mem_pair.1 hd with rfl | rfl
    · exact ⟨ls, (List.prefix_append ls _).isInfix, hl⟩
    · exact ⟨rs, ⟨ls ++ [t], [], by simp⟩, hr⟩
  | @ternary c t e question colon cs ts es hc _ ht _ he =>
    simp only [children, List.mem_cons, List.not_mem_nil, or_false] at hd
    rcases hd with rfl | rfl | rfl
    · exact ⟨cs, (List.prefix_append cs _).isInfix, hc⟩
    · exact ⟨ts, ⟨cs ++ [question], colon :: es, by simp⟩, ht⟩
    · exact ⟨es, ⟨cs ++ question :: (ts ++ [colon]), [], by simp⟩, he⟩
  | @call s args word opening closing ts R _ _ hargs hR =>
    obtain ⟨vs, hvs, hd⟩ := hargs.exists_span d hd
    exact ⟨vs, hvs.trans ⟨[word, opening], [closing], by simp⟩, hR d vs hd⟩
  | @lambda ps body word opening closing ts bs _ _ _ _ hbody =>
    cases List.mem_singleton.1 hd
    exact ⟨bs, ⟨word :: opening :: (ts ++ [closing]), [], by simp⟩, hbody⟩
  | @list values opening closing ts R _ hvalues hR =>
    obtain ⟨vs, hvs, hd⟩ := hvalues.exists_span d hd
    exact ⟨vs, hvs.trans ⟨[opening], [closing], by simp⟩, hR d vs hd⟩

/-- Each node of a tree is read from a span of the tokens of the tree. -/
theorem Expr.Reads.within {d e : Expr} (hd : d.Within e) :
    ∀ {us : List Token}, e.Reads us → ∃ vs, vs <:+: us ∧ d.Reads vs := by
  induction hd with
  | root =>
    intro us h
    exact ⟨us, List.infix_rfl, h⟩
  | child hchild _ ih =>
    intro us h
    obtain ⟨vs, hvs, hreads⟩ := h.child _ hchild
    obtain ⟨ws, hws, hd⟩ := ih hreads
    exact ⟨ws, hws.trans hvs, hd⟩

/-- The expression of a statement is read from a span of the tokens of the statement. -/
theorem Stmt.Reads.body {s : Stmt} {us : List Token} (h : s.Reads us) :
    ∃ vs, vs <:+: us ∧ s.body.Reads vs := by
  cases h with
  | @assign s e target sign ts _ _ he => exact ⟨ts, ⟨[target, sign], [], by simp⟩, he⟩
  | expression he => exact ⟨us, List.infix_rfl, he⟩

/-- Each statement of a program is read from a span of its tokens. -/
theorem Program.reads_of_mem {ss : List Stmt} {ts : List Token} (h : Program ss ts) :
    ∀ s ∈ ss, ∃ us, us <:+: ts ∧ s.Reads us := by
  induction h with
  | nil => simp
  | @cons s ss ts rest head _ ih =>
    intro x hx
    rcases List.mem_cons.1 hx with rfl | hx
    · exact ⟨ts, (List.prefix_append ts rest).isInfix, head.reads⟩
    · obtain ⟨us, hus, hreads⟩ := ih x hx
      exact ⟨us, hus.trans (List.suffix_append ts rest).isInfix, hreads⟩

/-! ## Order -/

/-- The positions grow along the tokens. -/
def InOrder (ts : List Token) : Prop := ts.Pairwise fun t u => t.pos.Before u.pos

theorem InOrder.of_span {us ts : List Token} (h : InOrder ts) (hus : us <:+: ts) : InOrder us :=
  List.Pairwise.sublist hus.sublist h

/-- What is placed among earlier tokens comes before what is placed among later ones. -/
theorem InOrder.before {us vs : List Token} (h : InOrder (us ++ vs)) {p q : Position}
    (hp : ∃ t ∈ us, p = t.pos) (hq : ∃ t ∈ vs, q = t.pos) : p.Before q := by
  obtain ⟨t, ht, rfl⟩ := hp
  obtain ⟨u, hu, rfl⟩ := hq
  exact (List.pairwise_append.1 h).2.2 t ht u hu

/-- What is placed in a span is placed in the whole. -/
theorem placed_of_span {us ts : List Token} {p : Position} (h : ∃ t ∈ us, p = t.pos)
    (hus : us <:+: ts) : ∃ t ∈ ts, p = t.pos := by
  obtain ⟨t, ht, hpos⟩ := h
  exact ⟨t, hus.mem ht, hpos⟩

/-- No token stands twice among tokens in order, so that its index is where it stands. -/
theorem InOrder.idxOf_eq {ts rest : List Token} {t : Token} (h : InOrder (ts ++ t :: rest)) :
    (ts ++ t :: rest).idxOf t = ts.length := by
  have hnotMem : t ∉ ts := by
    intro ht
    have hbefore := h.before ⟨t, ht, rfl⟩ ⟨t, by simp, rfl⟩
    unfold Position.Before at hbefore
    omega
  rw [List.idxOf_append, if_neg hnotMem, List.idxOf_cons_self, Nat.zero_add]

section Items

variable {α : Type} {R : α → List Token → Prop} {place : α → Position}
  (hplace : ∀ x us, R x us → ∃ t ∈ us, place x = t.pos) {xs : List α} {ts : List Token}

include hplace

theorem Following.place_mem (h : Following R xs ts) : ∀ p ∈ xs.map place, ∃ t ∈ ts, p = t.pos := by
  intro p hp
  obtain ⟨x, hx, rfl⟩ := List.mem_map.1 hp
  obtain ⟨us, hus, hR⟩ := h.exists_span x hx
  exact placed_of_span (hplace x us hR) hus

theorem Following.pairwise_before (h : Following R xs ts) (hts : InOrder ts) :
    (xs.map place).Pairwise Position.Before := by
  induction h with
  | nil => exact .nil
  | @cons x xs comma ts us hcomma hx tail ih =>
    have horder : InOrder (ts ++ us) := hts.of_span (List.suffix_cons comma _).isInfix
    refine List.pairwise_cons.2 ⟨fun p hp => ?_, ?_⟩
    · exact horder.before (hplace x ts hx) (tail.place_mem hplace p hp)
    · exact ih (horder.of_span (List.suffix_append ts us).isInfix)

/-- Items stand in the order of their tokens. -/
theorem Separated.pairwise_before (h : Separated R xs ts) (hts : InOrder ts) :
    (xs.map place).Pairwise Position.Before := by
  cases h with
  | nil => exact .nil
  | @cons x xs ts us hx tail =>
    refine List.pairwise_cons.2 ⟨fun p hp => ?_, ?_⟩
    · exact hts.before (hplace x ts hx) (tail.place_mem hplace p hp)
    · exact tail.pairwise_before hplace (hts.of_span (List.suffix_append ts us).isInfix)

end Items

/-- The children of a node stand in the order of the source. -/
theorem Expr.Reads.children_inOrder {e : Expr} {us : List Token} (h : e.Reads us)
    (hus : InOrder us) : (e.children.map Expr.pos).Pairwise Position.Before := by
  cases h with
  | number | name | range | rangeStep => exact .nil
  | group | unary | lambda => exact List.pairwise_singleton _ _
  | @binary op l r t ls rs hl _ hr =>
    have hbefore := hus.before hl.exists_mem (placed_of_span hr.exists_mem ⟨[t], [], by simp⟩)
    simpa [children] using hbefore
  | @ternary c t e question colon cs ts es hc _ ht _ he =>
    have hbranches : InOrder (ts ++ colon :: es) :=
      hus.of_span ⟨cs ++ [question], [], by simp⟩
    have hct := hus.before hc.exists_mem
      (placed_of_span ht.exists_mem ⟨[question], colon :: es, by simp⟩)
    have hce := hus.before hc.exists_mem
      (placed_of_span he.exists_mem ⟨question :: (ts ++ [colon]), [], by simp⟩)
    have hte := hbranches.before ht.exists_mem
      (placed_of_span he.exists_mem ⟨[colon], [], by simp⟩)
    simpa [children] using ⟨⟨hct, hce⟩, hte⟩
  | @call s args word opening closing ts R _ _ hargs hR =>
    exact hargs.pairwise_before (fun x vs hx => (hR x vs hx).exists_mem)
      (hus.of_span ⟨[word, opening], [closing], by simp⟩)
  | @list values opening closing ts R _ hvalues hR =>
    exact hvalues.pairwise_before (fun x vs hx => (hR x vs hx).exists_mem)
      (hus.of_span ⟨[opening], [closing], by simp⟩)

/-- The statements of a program stand in the order of the source. -/
theorem Program.pairwise_before {ss : List Stmt} {ts : List Token} (h : Program ss ts)
    (hts : InOrder ts) : (ss.map Stmt.pos).Pairwise Position.Before := by
  induction h with
  | nil => exact .nil
  | @cons s ss ts rest head tail ih =>
    refine List.pairwise_cons.2 ⟨fun p hp => ?_, ?_⟩
    · obtain ⟨x, hx, rfl⟩ := List.mem_map.1 hp
      obtain ⟨us, hus, hreads⟩ := tail.reads_of_mem x hx
      exact hts.before head.reads.exists_mem (placed_of_span hreads.exists_mem hus)
    · exact ih (hts.of_span (List.suffix_append ts rest).isInfix)

/-! ## Sources -/

/-- The text of the token stands in the source, at the true coordinate that the token has. -/
def Token.StandsIn (source : String) (t : Token) : Prop :=
  ∃ before after, source.toList = before ++ (t.text.toList ++ after) ∧ t.pos = coordinate before

theorem LaidOut.standsIn {before code : List Char} {ts : List Token} (h : LaidOut before ts code)
    {source : String} (hsource : source.toList = before ++ code) :
    ∀ t ∈ ts, t.StandsIn source := by
  induction h with
  | @finish before gap hgap =>
    intro t ht
    rw [List.mem_singleton.1 ht]
    exact ⟨before, gap, hsource, rfl⟩
  | @token before gap after t ts hgap hend htext hpos tail ih =>
    intro u hu
    rcases List.mem_cons.1 hu with rfl | hu
    · exact ⟨before ++ gap, after, by rw [hsource, List.append_assoc], hpos⟩
    · exact ih (by simp [hsource]) u hu

namespace Cursor

/-- A token ahead stands some text after the cursor. -/
theorem Placed.exists_coordinate {c : Cursor} (hc : c.Placed) :
    ∀ t ∈ c.ahead.tokens, ∃ between, t.pos = coordinate (c.taken.reverse ++ between) := by
  -- What lies between the cursor before a step and a place after it.
  have hstep : ∀ {c c' : Cursor} {t : Token}, c.next = .ok (t, c') → ∀ p : Position,
      (∃ between, p = coordinate (c'.taken.reverse ++ between)) →
      ∃ between, p = coordinate (c.taken.reverse ++ between) := by
    rintro c c' t hnext p ⟨between, hp⟩
    rcases next_cases hnext with ⟨-, rfl, -⟩ | ⟨gap, text, _, _, _, -, -, -, -, -, rfl⟩
    · exact ⟨between, hp⟩
    · refine ⟨gap ++ text ++ between, hp.trans ?_⟩
      simp
  fun_induction ahead c with
  | case1 c e hnext => simp
  | case2 c t c' hnext hend => simp
  | case3 c t c' hnext hend hskip ih =>
    intro u hu
    exact hstep hnext u.pos (ih (hc.next hnext) u hu)
  | case4 c t c' hnext hend hskip ih =>
    intro u hu
    rcases List.mem_cons.1 hu with rfl | hu
    · rcases next_cases hnext with ⟨rfl, -, -⟩ | ⟨gap, _, _, _, _, -, hgap, -, -, rfl, -⟩
      · exact absurd rfl hend
      · exact ⟨gap, hc.advance_gap hgap⟩
    · exact hstep hnext u.pos (ih (hc.next hnext) u hu)

/-- The tokens ahead of a cursor are in order, whether or not scanning fails after them. -/
theorem Placed.inOrder {c : Cursor} (hc : c.Placed) : InOrder c.ahead.tokens := by
  fun_induction ahead c with
  | case1 c e hnext => exact .nil
  | case2 c t c' hnext hend => exact .nil
  | case3 c t c' hnext hend hskip ih => exact ih (hc.next hnext)
  | case4 c t c' hnext hend hskip ih =>
    refine List.pairwise_cons.2 ⟨fun u hu => ?_, ih (hc.next hnext)⟩
    obtain ⟨between, hu⟩ := (hc.next hnext).exists_coordinate u hu
    rcases next_cases hnext with ⟨rfl, -, -⟩ | ⟨gap, text, after, _, _, -, hgap, ht, -, rfl, rfl⟩
    · exact absurd rfl hend
    · have hne := (Fragment.take?_isPrefixOf ht).1
      have hlater : u.pos = coordinate (c.taken.reverse ++ gap ++ (text ++ between)) := by
        rw [hu]
        simp
      rw [hlater]
      show (c.pos.advance gap).Before _
      rw [hc.advance_gap hgap]
      exact coordinate_before_append _ (by simp [hne])

end Cursor

/-- The significant tokens of a source that is scanned without failure stand in it. -/
theorem standsIn_of_tokenize {source filename : String} {convert : Converter} {ts : List Token}
    (h : tokenize source filename convert true = .ok ts) :
    ∀ t ∈ significant ts, t.StandsIn source := by
  unfold tokenize at h
  split at h
  · cases h
  · next us c hrun =>
    cases h
    intro t ht
    have hlaid := (Cursor.placed_start source filename convert).laidOut hrun
    exact hlaid.standsIn rfl t (List.mem_of_mem_filter ht)

/-- The expression is read from a span of the tokens and placed where its anchor is. -/
def Expr.AnchoredIn (ts : List Token) (e : Expr) : Prop :=
  ∃ us t, us <:+: ts ∧ e.Reads us ∧ us[e.anchor]? = some t ∧ e.pos = t.pos

/-- The statement is read from a span of the tokens and placed where its anchor is. -/
def Stmt.AnchoredIn (ts : List Token) (s : Stmt) : Prop :=
  ∃ us t, us <:+: ts ∧ s.Reads us ∧ us[s.anchor]? = some t ∧ s.pos = t.pos

/-- Every node of a program, statements included, is placed where its anchor token stands in
the source.  The children of every node, and the statements, stand in the order of the
source. -/
theorem parseProgram_anchored {c : Config} {source : String} {ss : List Stmt}
    (h : parseProgram c source = .ok ss) :
    ∃ ts, tokenize source c.filename c.convert true = .ok ts ∧
      (∀ t ∈ significant ts, t.StandsIn source) ∧
      (∀ s ∈ ss, s.AnchoredIn (significant ts) ∧
        (s.toTree.children.map Tree.pos).Pairwise Position.Before ∧
        ∀ e : Expr, e.Within s.body → e.AnchoredIn (significant ts) ∧
          (e.toTree.children.map Tree.pos).Pairwise Position.Before) ∧
      (ss.map Stmt.pos).Pairwise Position.Before := by
  have hcases := parseProgram_cases c source
  rw [h] at hcases
  obtain ⟨hfailure, hprogram⟩ := hcases
  obtain ⟨ts, hts, hsignificant⟩ := tokenize_of_ahead hfailure true
  have horder : InOrder (significant ts) :=
    hsignificant ▸ (Cursor.placed_start source c.filename c.convert).inOrder
  have hprogram : Program ss (significant ts) := hsignificant ▸ hprogram
  refine ⟨ts, hts, standsIn_of_tokenize hts, fun s hs => ?_, hprogram.pairwise_before horder⟩
  obtain ⟨us, hus, hreads⟩ := hprogram.reads_of_mem s hs
  obtain ⟨t, ht, hpos⟩ := hreads.anchor
  refine ⟨⟨us, t, hus, hreads, ht, hpos⟩, ?_, fun e he => ?_⟩
  · rw [s.children_toTree]
    exact List.pairwise_singleton _ _
  · obtain ⟨vs, hvs, hbody⟩ := hreads.body
    obtain ⟨ws, hws, hreads'⟩ := Expr.Reads.within he hbody
    have hspan : ws <:+: significant ts := hws.trans (hvs.trans hus)
    obtain ⟨u, hu, hpos'⟩ := hreads'.anchor
    refine ⟨⟨ws, u, hspan, hreads', hu, hpos'⟩, ?_⟩
    rw [e.map_pos_children]
    exact hreads'.children_inOrder (horder.of_span hspan)

/-- An assignment over three rows whose value begins with two operators before an operand, and
a sum. -/
def severalRows : String := "y = !-a * 2 // factor\n  ? [b, 1]\n  : -c\nd\n+ 1"

theorem parseProgram_anchored_rows :
    ∃ ss, parseProgram ⟨.integer, anonymous, 2⟩ severalRows = .ok ss ∧
      ss.map Stmt.pos = [⟨0, 0⟩, ⟨3, 0⟩] ∧ ss.map (·.body.pos) = [⟨0, 6⟩, ⟨3, 0⟩] ∧
      ∃ ts, tokenize severalRows anonymous .integer true = .ok ts ∧
        (∀ t ∈ significant ts, t.StandsIn severalRows) ∧
        (∀ s ∈ ss, s.AnchoredIn (significant ts) ∧
          (s.toTree.children.map Tree.pos).Pairwise Position.Before ∧
          ∀ e : Expr, e.Within s.body → e.AnchoredIn (significant ts) ∧
            (e.toTree.children.map Tree.pos).Pairwise Position.Before) ∧
        (ss.map Stmt.pos).Pairwise Position.Before := by
  have hplaces : (parseProgram ⟨.integer, anonymous, 2⟩ severalRows).toOption.map
      (fun ss => (ss.map Stmt.pos, ss.map (·.body.pos))) =
        some ([⟨0, 0⟩, ⟨3, 0⟩], [⟨0, 6⟩, ⟨3, 0⟩]) := by
    decide +kernel
  cases h : parseProgram ⟨.integer, anonymous, 2⟩ severalRows with
  | error f =>
    rw [h] at hplaces
    cases hplaces
  | ok ss =>
    rw [h] at hplaces
    obtain ⟨hpos, hbody⟩ := Prod.mk.inj (Option.some.inj hplaces)
    exact ⟨ss, rfl, hpos, hbody, parseProgram_anchored h⟩

end ExprFront
