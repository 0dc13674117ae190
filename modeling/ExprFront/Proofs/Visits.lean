import ExprFront.Proofs.Anchors

/-!
# Visiting trees

A visitor has handlers for some classes of nodes.  At a node of such a class the handler answers;
at any other node the children are visited one after the other.  A visitor whose handlers record
their node and go no further sees the topmost nodes of its classes, from left to right.

* `Tree.accept` visits a tree with any handlers, and `Tree.recorder` are handlers that record.
  What they record and answer at one tree is `Tree.accept_recorder`, and `Tree.visitEach` lists it
  tree by tree (`Tree.mapM_accept_recorder`).
* `Tree.preorder` lists the nodes of a tree in pre-order, each with the nodes that it lies below.
  The topmost nodes are those of the list that lie below no other node of the classes
  (`Tree.topmost_eq`).
* Topmost nodes lie side by side, so the tokens that they are anchored to come one after the other
  (`Expr.Reads.topmost_sublist`).

Main result: `parseProgram_visited`.
-/

namespace ExprFront

open scoped List

namespace Tree

/-! ## Visitors -/

/-- What a visitor does at the nodes of the classes that it handles. -/
abbrev Handlers (σ α : Type) := String → Option (Tree → StateM σ α)

section Visitors

variable {σ α : Type}

mutual

/-- Visits a tree.  The handler for the class of the root answers, if there is one; without it,
the nodes right below the root are visited, and there is no answer. -/
def accept (handlers : Handlers σ α) : Tree → StateM σ (Option α)
  | node l p cs =>
    match handlers l.className with
    | some handle => some <$> handle (node l p cs)
    | none => do
      acceptEach handlers cs
      return none

/-- Visits the nodes among several trees, and drops their answers. -/
def acceptEach (handlers : Handlers σ α) : List Tree → StateM σ Unit
  | [] => pure ()
  | t :: ts => do
    if t.label.isNode then
      let _ ← t.accept handlers
    acceptEach handlers ts

end

/-- Handlers for the given classes that record their node.  They answer with what `answer` makes
of the nodes that were recorded before and of the node itself. -/
def recorder (classes : List String) (answer : List Tree → Tree → α) :
    Handlers (List Tree) α := fun c =>
  if c ∈ classes then some fun t seen => (answer seen t, seen ++ [t]) else none

variable (classes : List String) (answer : List Tree → Tree → α)

mutual

/-- At one tree, a recorder records the topmost nodes.  It answers if it handles the root. -/
theorem accept_recorder : ∀ (t : Tree) (seen : List Tree),
    (t.accept (recorder classes answer)).run seen =
      (if t.className ∈ classes then some (answer seen t) else none, seen ++ t.topmost classes)
  | node l p cs, seen => by
    have hclass : (node l p cs).className = l.className := rfl
    rw [accept, topmost, hclass]
    by_cases hl : l.className ∈ classes
    · have hhandler : recorder classes answer l.className =
          some fun t seen => (answer seen t, seen ++ [t]) := if_pos hl
      rw [hhandler, if_pos hl, if_pos hl]
      rfl
    · have hhandler : recorder classes answer l.className = none := if_neg hl
      rw [hhandler, if_neg hl, if_neg hl]
      simp only [StateT.run_bind, acceptEach_recorder cs seen]
      rfl

theorem acceptEach_recorder : ∀ (ts : List Tree) (seen : List Tree),
    (acceptEach (recorder classes answer) ts).run seen = ((), seen ++ topmostOfEach classes ts)
  | [], seen => by
    rw [topmostOfEach, List.append_nil]
    rfl
  | t :: ts, seen => by
    rw [acceptEach, topmostOfEach]
    split
    · simp only [StateT.run_bind, accept_recorder t seen]
      rw [← List.append_assoc]
      exact acceptEach_recorder ts _
    · rw [List.nil_append]
      exact acceptEach_recorder ts seen

end

/-- Trees that are visited one after the other add up: each records its topmost nodes, and those
that count them answer with the number of nodes recorded so far. -/
theorem mapM_accept_recorder (ts seen : List Tree) :
    (ts.mapM (accept (recorder classes fun seen _ => seen.length + 1))).run seen =
      ((visitEach classes seen.length ts).map Prod.snd,
        seen ++ (visitEach classes seen.length ts).flatMap Prod.fst) := by
  induction ts generalizing seen with
  | nil =>
    rw [List.mapM_nil, visitEach, List.flatMap_nil, List.append_nil]
    rfl
  | cons t ts ih =>
    have htail := ih (seen ++ t.topmost classes)
    rw [List.length_append] at htail
    rw [List.mapM_cons, visitEach, List.flatMap_cons, ← List.append_assoc, List.map_cons]
    simp only [StateT.run_bind, accept_recorder]
    exact congrArg (fun r => (_ :: r.1, r.2)) htail

end Visitors

/-! ## The nodes of a tree -/

/-- A node in a tree, with the nodes that it lies below, the nearest first. -/
structure Occurrence where
  above : List Tree
  tree : Tree

/-- Is the node of one of the classes, and none that it lies below? -/
def Occurrence.isTopmost (classes : List String) (o : Occurrence) : Bool :=
  o.tree.className ∈ classes && o.above.all (·.className ∉ classes)

/-- The topmost nodes among those listed. -/
def topmostAmong (classes : List String) (nodes : List Occurrence) : List Tree :=
  (nodes.filter (·.isTopmost classes)).map (·.tree)

mutual

/-- The nodes of a tree in pre-order; the tree itself lies below the nodes `above`. -/
def preorder (above : List Tree) : Tree → List Occurrence
  | node l p cs => ⟨above, node l p cs⟩ :: preorderEach (node l p cs :: above) cs

/-- The nodes of several trees in pre-order; what is no node is passed over. -/
def preorderEach (above : List Tree) : List Tree → List Occurrence
  | [] => []
  | t :: ts => (if t.label.isNode then t.preorder above else []) ++ preorderEach above ts

end

section Topmost

variable (classes : List String)

theorem topmostAmong_append (nodes nodes' : List Occurrence) :
    topmostAmong classes (nodes ++ nodes') =
      topmostAmong classes nodes ++ topmostAmong classes nodes' := by
  rw [topmostAmong, List.filter_append, List.map_append]
  rfl

theorem topmostAmong_cons (o : Occurrence) (nodes : List Occurrence) :
    topmostAmong classes (o :: nodes) =
      if o.isTopmost classes then o.tree :: topmostAmong classes nodes
      else topmostAmong classes nodes := by
  rw [topmostAmong, List.filter_cons]
  split <;> rfl

mutual

/-- Below a node of one of the classes, no node is topmost. -/
theorem topmostAmong_preorder_below : ∀ (t : Tree) {above : List Tree},
    above.all (·.className ∉ classes) = false → topmostAmong classes (t.preorder above) = []
  | node l p cs, above, h => by
    have htop : Occurrence.isTopmost classes ⟨above, node l p cs⟩ = false := by
      rw [Occurrence.isTopmost, h, Bool.and_false]
    have hbelow : (node l p cs :: above).all (·.className ∉ classes) = false := by
      rw [List.all_cons, h, Bool.and_false]
    rw [preorder, topmostAmong_cons, htop]
    exact topmostAmong_preorderEach_below cs hbelow

theorem topmostAmong_preorderEach_below : ∀ (ts : List Tree) {above : List Tree},
    above.all (·.className ∉ classes) = false → topmostAmong classes (preorderEach above ts) = []
  | [], above, _ => rfl
  | t :: ts, above, h => by
    rw [preorderEach, topmostAmong_append, topmostAmong_preorderEach_below ts h, List.append_nil]
    split
    · exact topmostAmong_preorder_below t h
    · rfl

end

mutual

/-- The topmost nodes are those of the tree that lie below no other of the classes. -/
theorem topmost_eq : ∀ (t : Tree) {above : List Tree},
    above.all (·.className ∉ classes) = true →
      t.topmost classes = topmostAmong classes (t.preorder above)
  | node l p cs, above, h => by
    have hclass : (node l p cs).className = l.className := rfl
    rw [topmost, preorder, topmostAmong_cons, Occurrence.isTopmost, h, hclass, Bool.and_true]
    by_cases hl : l.className ∈ classes
    · have hbelow : (node l p cs :: above).all (·.className ∉ classes) = false := by
        rw [List.all_cons, hclass, decide_eq_false (not_not_intro hl), Bool.false_and]
      rw [if_pos hl, if_pos (decide_eq_true hl), topmostAmong_preorderEach_below classes cs hbelow]
    · have hbelow : (node l p cs :: above).all (·.className ∉ classes) = true := by
        rw [List.all_cons, h, hclass, Bool.and_true, decide_eq_true hl]
      rw [if_neg hl, if_neg (by simpa using hl)]
      exact topmostOfEach_eq cs hbelow

theorem topmostOfEach_eq : ∀ (ts : List Tree) {above : List Tree},
    above.all (·.className ∉ classes) = true →
      topmostOfEach classes ts = topmostAmong classes (preorderEach above ts)
  | [], above, _ => rfl
  | t :: ts, above, h => by
    rw [topmostOfEach, preorderEach, topmostAmong_append, ← topmostOfEach_eq ts h]
    split
    · rw [← topmost_eq t h]
    · rfl

end

/-- The topmost nodes of a tree are its root, if that is of the classes, or else those of the
nodes right below it. -/
theorem topmost_eq_children : ∀ t : Tree, t.topmost classes =
    if t.className ∈ classes then [t] else t.children.flatMap (topmost classes)
  | node l p cs => by
    have heach : ∀ ts : List Tree, topmostOfEach classes ts =
        (ts.filter (·.label.isNode)).flatMap (topmost classes) := by
      intro ts
      induction ts with
      | nil => rfl
      | cons t ts ih =>
        rw [topmostOfEach, List.filter_cons, ih]
        split
        · rw [List.flatMap_cons]
        · rw [List.nil_append]
    rw [topmost, heach]
    rfl

end Topmost

end Tree

/-! ## Order -/

section Items

variable {α : Type} {R : α → List Token → Prop} {places : α → List Position}
  (hplaces : ∀ x us, R x us → places x <+ us.map Token.pos) {xs : List α} {ts : List Token}

include hplaces

theorem Following.places_sublist (h : Following R xs ts) :
    xs.flatMap places <+ ts.map Token.pos := by
  induction h with
  | nil => exact List.nil_sublist _
  | @cons x xs comma ts us _ hx _ ih =>
    rw [List.flatMap_cons, List.map_cons, List.map_append]
    exact ((hplaces x ts hx).append ih).cons _

/-- What is placed among the tokens of each item is placed, item by item, among those of all. -/
theorem Separated.places_sublist (h : Separated R xs ts) :
    xs.flatMap places <+ ts.map Token.pos := by
  cases h with
  | nil => exact List.nil_sublist _
  | @cons x xs ts us hx tail =>
    rw [List.flatMap_cons, List.map_append]
    exact (hplaces x ts hx).append (tail.places_sublist hplaces)

end Items

section Places

variable (classes : List String)

/-- Where the topmost nodes of an expression stand. -/
def Expr.topmostPlaces (e : Expr) : List Position := (e.toTree.topmost classes).map Tree.pos

/-- Where the topmost nodes of a statement stand. -/
def Stmt.topmostPlaces (s : Stmt) : List Position := (s.toTree.topmost classes).map Tree.pos

theorem Expr.topmostPlaces_eq (e : Expr) : e.topmostPlaces classes =
    if e.toTree.className ∈ classes then [e.pos]
    else e.children.flatMap (topmostPlaces classes) := by
  rw [topmostPlaces, Tree.topmost_eq_children, children_toTree]
  split
  · rw [List.map_singleton, pos_toTree]
  · rw [List.flatMap_map, List.map_flatMap]
    rfl

theorem Stmt.topmostPlaces_eq (s : Stmt) : s.topmostPlaces classes =
    if s.toTree.className ∈ classes then [s.pos] else s.body.topmostPlaces classes := by
  have hpos : s.toTree.pos = s.pos := by cases s <;> rfl
  rw [topmostPlaces, Tree.topmost_eq_children, children_toTree]
  split
  · rw [List.map_singleton, hpos]
  · rw [List.flatMap_singleton]
    rfl

/-- A node stands at one of its tokens, so that only those below it need to be looked at. -/
theorem Expr.Reads.topmost_sublist_of_children {e : Expr} {us : List Token} (h : e.Reads us)
    (hbelow : e.children.flatMap (topmostPlaces classes) <+ us.map Token.pos) :
    e.topmostPlaces classes <+ us.map Token.pos := by
  rw [topmostPlaces_eq]
  split
  · obtain ⟨t, ht, hpos⟩ := h.exists_mem
    rw [hpos]
    exact List.singleton_sublist.2 (List.mem_map_of_mem ht)
  · exact hbelow

/-- The topmost nodes of an expression stand at some of its tokens, in the same order. -/
theorem Expr.Reads.topmost_sublist {e : Expr} {us : List Token} (h : e.Reads us) :
    e.topmostPlaces classes <+ us.map Token.pos := by
  induction h with
  | number h => exact (Reads.number h).topmost_sublist_of_children classes (List.nil_sublist _)
  | name h => exact (Reads.name h).topmost_sublist_of_children classes (List.nil_sublist _)
  | range ho hf hd hl hv hc =>
    exact (Reads.range ho hf hd hl hv hc).topmost_sublist_of_children classes (List.nil_sublist _)
  | rangeStep ho hf hd hl hv hs hw hc =>
    exact (Reads.rangeStep ho hf hd hl hv hs hw hc).topmost_sublist_of_children classes
      (List.nil_sublist _)
  | group ho hinner hc ih =>
    refine (Reads.group ho hinner hc).topmost_sublist_of_children classes ?_
    rw [children, List.flatMap_singleton, List.map_cons, List.map_append]
    exact (ih.trans (List.sublist_append_left ..)).cons _
  | unary ht he ih =>
    refine (Reads.unary ht he).topmost_sublist_of_children classes ?_
    rw [children, List.flatMap_singleton, List.map_cons]
    exact ih.cons _
  | binary hl ht hr ihl ihr =>
    refine (Reads.binary hl ht hr).topmost_sublist_of_children classes ?_
    rw [children, List.flatMap_cons, List.flatMap_singleton, List.map_append, List.map_cons]
    exact ihl.append (ihr.cons _)
  | ternary hc hq ht hk he ihc iht ihe =>
    refine (Reads.ternary hc hq ht hk he).topmost_sublist_of_children classes ?_
    rw [children, List.flatMap_cons, List.flatMap_cons, List.flatMap_singleton, List.map_append,
      List.map_cons, List.map_append, List.map_cons]
    exact ihc.append ((iht.append (ihe.cons _)).cons _)
  | call hw ho hargs hR hc ih =>
    refine (Reads.call hw ho hargs hR hc).topmost_sublist_of_children classes ?_
    have hplaces := hargs.places_sublist ih
    rw [children, List.map_cons, List.map_cons, List.map_append]
    exact ((hplaces.trans (List.sublist_append_left ..)).cons _).cons _
  | lambda hw ho hps hc hbody ih =>
    refine (Reads.lambda hw ho hps hc hbody).topmost_sublist_of_children classes ?_
    rw [children, List.flatMap_singleton, List.map_cons, List.map_cons, List.map_append,
      List.map_cons]
    exact (((ih.cons _).trans (List.sublist_append_right ..)).cons _).cons _
  | list ho hvalues hR hc ih =>
    refine (Reads.list ho hvalues hR hc).topmost_sublist_of_children classes ?_
    have hplaces := hvalues.places_sublist ih
    rw [children, List.map_cons, List.map_append]
    exact (hplaces.trans (List.sublist_append_left ..)).cons _

theorem Stmt.Reads.topmost_sublist {s : Stmt} {us : List Token} (h : s.Reads us) :
    s.topmostPlaces classes <+ us.map Token.pos := by
  rw [topmostPlaces_eq]
  split
  · obtain ⟨t, ht, hpos⟩ := h.exists_mem
    rw [hpos]
    exact List.singleton_sublist.2 (List.mem_map_of_mem ht)
  · obtain ⟨vs, hvs, hbody⟩ := h.body
    exact (hbody.topmost_sublist classes).trans (hvs.sublist.map Token.pos)

/-- The topmost nodes of a program stand at some of its tokens, in the same order. -/
theorem Program.topmost_sublist {ss : List Stmt} {ts : List Token} (h : Program ss ts) :
    ss.flatMap (Stmt.topmostPlaces classes) <+ ts.map Token.pos := by
  induction h with
  | nil => exact List.nil_sublist _
  | cons head _ ih =>
    rw [List.flatMap_cons, List.map_append]
    exact (head.reads.topmost_sublist classes).append ih

end Places

/-! ## Programs -/

namespace Tree

theorem flatMap_visitEach (classes : List String) (recorded : Nat) (ts : List Tree) :
    (visitEach classes recorded ts).flatMap Prod.fst = ts.flatMap (topmost classes) := by
  induction ts generalizing recorded with
  | nil => rfl
  | cons t ts ih => rw [visitEach, List.flatMap_cons, List.flatMap_cons, ih]

end Tree

/-- The topmost nodes of a program, as one list. -/
theorem Stmt.flatMap_topmost (classes : List String) (ss : List Stmt) :
    (ss.map toTree).flatMap (Tree.topmost classes) =
      Tree.topmostAmong classes (Tree.preorderEach [] (ss.map toTree)) := by
  have hnode : ∀ s : Stmt, s.toTree.label.isNode = true := fun s => by cases s <;> rfl
  rw [← Tree.topmostOfEach_eq classes _ List.all_nil]
  induction ss with
  | nil => rfl
  | cons s ss ih => rw [List.map_cons, List.flatMap_cons, ih, Tree.topmostOfEach, if_pos (hnode s)]

/-- A visitor that records the nodes of some classes, and does not go below them, sees in a
program the nodes of these classes that lie below no other, in pre-order.  They stand one after
the other in the source.  Visiting a statement gives what the handler answers, if the statement
itself is of the classes, and else nothing. -/
theorem parseProgram_visited {c : Config} {source : String} {ss : List Stmt}
    (h : parseProgram c source = .ok ss) (classes : List String) :
    ∃ recorded : List Tree,
      recorded = Tree.topmostAmong classes (Tree.preorderEach [] (ss.map Stmt.toTree)) ∧
      (recorded.map Tree.pos).Pairwise Position.Before ∧
      (Tree.visitEach classes 0 (ss.map Stmt.toTree)).flatMap Prod.fst = recorded ∧
      ((ss.map Stmt.toTree).mapM
          (Tree.accept (Tree.recorder classes fun seen _ => seen.length + 1))).run [] =
        ((Tree.visitEach classes 0 (ss.map Stmt.toTree)).map Prod.snd, recorded) ∧
      ∀ {α : Type} (answer : List Tree → Tree → α) (seen : List Tree), ∀ s ∈ ss,
        (s.toTree.accept (Tree.recorder classes answer)).run seen =
          (if s.toTree.className ∈ classes then some (answer seen s.toTree) else none,
            seen ++ Tree.topmostAmong classes (s.toTree.preorder [])) := by
  have hcases := parseProgram_cases c source
  rw [h] at hcases
  obtain ⟨-, hprogram⟩ := hcases
  have horder := (Cursor.placed_start source c.filename c.convert).inOrder
  have hvisits := Tree.flatMap_visitEach classes 0 (ss.map Stmt.toTree)
  refine ⟨_, rfl, ?_, ?_, ?_, fun answer seen s hs => ?_⟩
  · have hplaces : (Tree.topmostAmong classes (Tree.preorderEach [] (ss.map Stmt.toTree))).map
        Tree.pos = ss.flatMap (Stmt.topmostPlaces classes) := by
      rw [← Stmt.flatMap_topmost, List.flatMap_map, List.map_flatMap]
      rfl
    rw [hplaces]
    exact List.Pairwise.sublist (hprogram.topmost_sublist classes)
      (List.pairwise_map.2 horder)
  · rw [hvisits, Stmt.flatMap_topmost]
  · rw [Tree.mapM_accept_recorder, List.nil_append, ← Stmt.flatMap_topmost, ← hvisits]
    rfl
  · rw [Tree.accept_recorder, ← Tree.topmost_eq classes s.toTree List.all_nil]

/-- Three statements with operators on operators, names below them, and an assignment. -/
def nestedNames : String := "f{-x, [y, 1]} ? !-z : (w) // chosen\nu = v * 2\n[1 .. 3]"

theorem parseProgram_visited_nested :
    ∃ ss, parseProgram ⟨.integer, anonymous, 2⟩ nestedNames = .ok ss ∧
      (Tree.visitEach ["UnaryOp", "Identifier", "Assign"] 0 (ss.map Stmt.toTree)).map
          (fun v => (v.1.map fun t => (t.className, t.pos), v.2)) =
        [([("UnaryOp", ⟨0, 3⟩), ("Identifier", ⟨0, 7⟩), ("UnaryOp", ⟨0, 18⟩),
            ("Identifier", ⟨0, 23⟩)], none),
          ([("Assign", ⟨1, 0⟩)], some 5), ([], none)] ∧
      ∃ recorded : List Tree,
        recorded = Tree.topmostAmong ["UnaryOp", "Identifier", "Assign"]
          (Tree.preorderEach [] (ss.map Stmt.toTree)) ∧
        (recorded.map Tree.pos).Pairwise Position.Before := by
  have hvisits : (parseProgram ⟨.integer, anonymous, 2⟩ nestedNames).toOption.map
      (fun ss => (Tree.visitEach ["UnaryOp", "Identifier", "Assign"] 0 (ss.map Stmt.toTree)).map
        (fun v => (v.1.map fun t => (t.className, t.pos), v.2))) =
      some [([("UnaryOp", ⟨0, 3⟩), ("Identifier", ⟨0, 7⟩), ("UnaryOp", ⟨0, 18⟩),
        ("Identifier", ⟨0, 23⟩)], none), ([("Assign", ⟨1, 0⟩)], some 5), ([], none)] := by
    decide +kernel
  cases h : parseProgram ⟨.integer, anonymous, 2⟩ nestedNames with
  | error f =>
    rw [h] at hvisits
    cases hvisits
  | ok ss =>
    rw [h] at hvisits
    obtain ⟨recorded, hrecorded, horder, -⟩ :=
      parseProgram_visited h ["UnaryOp", "Identifier", "Assign"]
    exact ⟨ss, rfl, Option.some.inj hvisits, recorded, hrecorded, horder⟩

end ExprFront
