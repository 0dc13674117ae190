import ExprFront.Proofs.ExactTypes
import ExprFront.Proofs.Likeness
import ExprFront.Proofs.LongestMatch
import ExprFront.Proofs.Sources

/-!
# Reading the notation back

The parenthesised notation of a program determines the program, up to positions.

* A word goes on up to a space or a parenthesis, so a nested list of words is determined by its
  text (`Sexp.Clean.cancels`, `Sexp.render_inj`).
* `Sexp.expr?` and `Sexp.stmt?` read trees from nested lists.  The first word of a list says what
  the list is (`Head`).  A name never stands there, so names may be spelled like heads.  Any other
  word is a name or a number by its first character: some names, such as `Infinity`, are texts
  that a converter would take.
* The values of exact types are written as words that start like numbers
  (`Value.Exact.isNumberText`) and are read back.  So what a tree says of the tokens of a source
  can be told from the words (`Mark.notated_of_isolated`).
* Each construct is read back where its parts are (`Expr.Readable`), hence a stratified tree is
  (`Expr.Stratified.readable`).  No expression is written like an assignment, because no operator
  between operands is spelled `=`.

Main result: `parseProgram_readback`.
-/

namespace ExprFront

open Number

/-! ## Texts of nested lists -/

namespace Sexp

/-- Can the character stand in a word? -/
def isWordChar (c : Char) : Bool := !" ()".toList.contains c

/-- A text that is one word. -/
def IsWord (cs : List Char) : Prop := cs ≠ [] ∧ cs.all isWordChar = true

instance : DecidablePred IsWord := fun _ => inferInstanceAs (Decidable (_ ∧ _))

theorem IsWord.forall_mem {cs : List Char} (h : IsWord cs) : ∀ c ∈ cs, isWordChar c = true :=
  List.all_eq_true.1 h.2

/-- All words of the nested list are words. -/
inductive Clean : Sexp → Prop where
  | atom {s : String} (h : IsWord s.toList) : Clean (.atom s)
  | list {members : List Sexp} (h : ∀ x ∈ members, Clean x) : Clean (.list members)

theorem Clean.headed {s : String} {members : List Sexp} (hs : IsWord s.toList)
    (h : ∀ x ∈ members, x.Clean) : Clean (.list (.atom s :: members)) :=
  .list (List.forall_mem_cons.2 ⟨.atom hs, h⟩)

/-- No word goes on at the front of the text. -/
def Parted (rest : List Char) : Prop := ∀ c ∈ rest.head?, isWordChar c = false

/-- The texts of members, each after a space. -/
def following (members : List Sexp) : List Char := members.flatMap fun x => ' ' :: x.render.toList

theorem following_cons (x : Sexp) (xs : List Sexp) (rest : List Char) :
    following (x :: xs) ++ rest = ' ' :: (x.render.toList ++ (following xs ++ rest)) := by
  rw [following, List.flatMap_cons, List.cons_append, List.cons_append, List.append_assoc]
  rfl

theorem toList_render_nil : (list []).render.toList = ['(', ')'] := rfl

theorem toList_render_cons (x : Sexp) (xs : List Sexp) :
    (list (x :: xs)).render.toList = '(' :: (x.render.toList ++ (following xs ++ [')'])) := by
  have hjoin : ∀ (x : Sexp) (xs : List Sexp),
      (String.intercalate " " (renderEach (x :: xs))).toList = x.render.toList ++ following xs := by
    intro x xs
    induction xs generalizing x with
    | nil => simp [renderEach, following]
    | cons y ys ih =>
      rw [renderEach, renderEach, String.intercalate_cons_cons, ← renderEach]
      simp [ih, following]
  simp [render, hjoin]

/-- A word can be told from the text that follows it. -/
theorem IsWord.append_inj {cs cs' rest rest' : List Char} (h : IsWord cs) (h' : IsWord cs')
    (hrest : Parted rest) (hrest' : Parted rest') (heq : cs ++ rest = cs' ++ rest') :
    cs = cs' ∧ rest = rest' := by
  have htake : ∀ {cs rest : List Char}, IsWord cs → Parted rest →
      (cs ++ rest).takeWhile isWordChar = cs := by
    intro cs rest h hrest
    have hnone : rest.takeWhile isWordChar = [] := by
      cases rest with
      | nil => rfl
      | cons c rest => exact List.takeWhile_cons_of_neg (by simp [hrest c rfl])
    rw [List.takeWhile_append_of_pos h.forall_mem, hnone, List.append_nil]
  have hcs : cs = cs' := by rw [← htake h hrest, heq, htake h' hrest']
  subst hcs
  exact ⟨rfl, List.append_cancel_left heq⟩

theorem parted_nil : Parted [] := by
  rintro c ⟨⟩

theorem parted_following (members : List Sexp) (rest : List Char) :
    Parted (following members ++ ')' :: rest) := by
  cases members with
  | nil =>
    rintro c ⟨⟩
    rfl
  | cons x xs =>
    rintro c ⟨⟩
    rfl

/-- The text of a list starts with a parenthesis. -/
theorem exists_toList_render_list (members : List Sexp) :
    ∃ cs, (list members).render.toList = '(' :: cs := by
  cases members with
  | nil => exact ⟨_, toList_render_nil⟩
  | cons x xs => exact ⟨_, toList_render_cons x xs⟩

/-- No word is the beginning of a text that starts with a parenthesis. -/
theorem IsWord.append_ne {cs : List Char} (h : IsWord cs) {c : Char} (hc : isWordChar c = false)
    (rest cs' : List Char) : cs ++ rest ≠ c :: cs' := by
  obtain ⟨d, ds, rfl⟩ := List.exists_cons_of_ne_nil h.1
  intro heq
  rw [← (List.cons.inj heq).1, h.forall_mem d List.mem_cons_self] at hc
  cases hc

theorem IsWord.append_ne_list {cs : List Char} (h : IsWord cs) (members : List Sexp)
    (rest rest' : List Char) : cs ++ rest ≠ (list members).render.toList ++ rest' := by
  obtain ⟨cs', hcs'⟩ := exists_toList_render_list members
  rw [hcs', List.cons_append]
  exact h.append_ne rfl _ _

/-- No member is mistaken for the end of the list. -/
theorem Clean.append_ne_close {x : Sexp} (h : x.Clean) (rest cs : List Char) :
    x.render.toList ++ rest ≠ ')' :: cs := by
  cases h with
  | atom hs => exact hs.append_ne rfl _ _
  | @list members hmembers =>
    obtain ⟨cs', hcs'⟩ := exists_toList_render_list members
    rw [hcs', List.cons_append]
    intro heq
    exact absurd (List.cons.inj heq).1 (by decide)

/-- What is written in front of a parted text can be told from the whole. -/
def Cancels (x : Sexp) : Prop :=
  ∀ y : Sexp, y.Clean → ∀ rest rest' : List Char, Parted rest → Parted rest' →
    x.render.toList ++ rest = y.render.toList ++ rest' → x = y ∧ rest = rest'

section Members

variable {xs ys : List Sexp} {rest rest' : List Char}

/-- The parenthesis that ends the members can be told from the spaces between them. -/
theorem following_inj (hxs : ∀ x ∈ xs, Cancels x) (hys : ∀ y ∈ ys, y.Clean)
    (heq : following xs ++ ')' :: rest = following ys ++ ')' :: rest') :
    xs = ys ∧ rest = rest' := by
  induction xs generalizing ys with
  | nil =>
    cases ys with
    | nil => exact ⟨rfl, (List.cons.inj heq).2⟩
    | cons y ys => exact absurd (List.cons.inj heq).1 (by decide)
  | cons x xs ih =>
    cases ys with
    | nil => exact absurd (List.cons.inj heq).1 (by decide)
    | cons y ys =>
      obtain ⟨hx, hcancels⟩ := List.forall_mem_cons.1 hxs
      obtain ⟨hy, hclean⟩ := List.forall_mem_cons.1 hys
      rw [following_cons, following_cons] at heq
      obtain ⟨rfl, hmore⟩ := hx y hy _ _ (parted_following xs rest) (parted_following ys rest')
        (List.cons.inj heq).2
      obtain ⟨rfl, hrest⟩ := ih hcancels hclean hmore
      exact ⟨rfl, hrest⟩

theorem list_inj (hxs : ∀ x ∈ xs, Cancels x) (hxs' : ∀ x ∈ xs, x.Clean) (hys : ∀ y ∈ ys, y.Clean)
    (heq : (list xs).render.toList ++ rest = (list ys).render.toList ++ rest') :
    xs = ys ∧ rest = rest' := by
  cases xs with
  | nil =>
    cases ys with
    | nil => exact ⟨rfl, List.append_cancel_left heq⟩
    | cons y ys =>
      rw [toList_render_cons, List.cons_append, List.append_assoc] at heq
      exact absurd (List.cons.inj heq).2.symm ((hys y List.mem_cons_self).append_ne_close _ _)
  | cons x xs =>
    cases ys with
    | nil =>
      rw [toList_render_cons, List.cons_append, List.append_assoc] at heq
      exact absurd (List.cons.inj heq).2 ((hxs' x List.mem_cons_self).append_ne_close _ _)
    | cons y ys =>
      obtain ⟨hx, hcancels⟩ := List.forall_mem_cons.1 hxs
      obtain ⟨hy, hclean⟩ := List.forall_mem_cons.1 hys
      simp only [toList_render_cons, List.cons_append, List.append_assoc, List.nil_append] at heq
      obtain ⟨rfl, hmore⟩ := hx y hy _ _ (parted_following xs rest) (parted_following ys rest')
        (List.cons.inj heq).2
      obtain ⟨rfl, hrest⟩ := following_inj hcancels hclean hmore
      exact ⟨rfl, hrest⟩

end Members

/-- What is clean can be told from the text that follows it. -/
theorem Clean.cancels {x : Sexp} (h : x.Clean) : Cancels x := by
  -- The induction is on one of the two nested lists; the other one must have the same form.
  induction h with
  | @atom s hs =>
    intro y hy rest rest' hrest hrest' heq
    cases hy with
    | @atom s' hs' =>
      obtain ⟨htext, hrest⟩ := hs.append_inj hs' hrest hrest' heq
      obtain rfl : s = s' := String.toList_injective htext
      exact ⟨rfl, hrest⟩
    | @list members _ => exact absurd heq (hs.append_ne_list members rest rest')
  | @list members hmembers ih =>
    intro y hy rest rest' hrest hrest' heq
    cases hy with
    | atom hs => exact absurd heq.symm (hs.append_ne_list members rest' rest)
    | list hmembers' =>
      obtain ⟨rfl, hrest⟩ := list_inj ih hmembers hmembers' heq
      exact ⟨rfl, hrest⟩

/-- A clean nested list is determined by its text. -/
theorem render_inj {x y : Sexp} (hx : x.Clean) (hy : y.Clean) (h : x.render = y.render) : x = y :=
  (hx.cancels y hy [] [] parted_nil parted_nil (by rw [h])).1

end Sexp

/-! ## The reader -/

/-- What a list is by its first word. -/
inductive Head where
  | group | choice | call | function | list | range
  | operator (p : Particle)
deriving DecidableEq, Repr

/-- The head that a word spells. -/
def Head.ofWord? : String → Option Head
  | "group" => some .group
  | "?" => some .choice
  | "call" => some .call
  | "fn" => some .function
  | "list" => some .list
  | "range" => some .range
  | s => (Particle.ofSymbol? s).map .operator

/-- The symbol is a word and the head that announces it. -/
structure Particle.IsHead (p : Particle) : Prop where
  word : Sexp.IsWord p.symbol.toList
  head : Head.ofWord? p.symbol = some (.operator p)

/-- All symbols but three are heads: parentheses are no words, and `?` announces choices. -/
theorem Particle.isHead {p : Particle} (h : p ∉ [.leftParen, .rightParen, .question]) :
    p.IsHead := by
  cases p with
  | leftParen | rightParen | question => exact absurd (by decide) h
  | _ => exact ⟨by decide, by decide +kernel⟩

theorem Particle.isHead_of_mem_operators {op : Particle} {t : Tier} (h : op ∈ t.operators) :
    op.IsHead := by
  refine isHead fun hop => ?_
  have htier := Tier.ofOperator?_eq_some_iff.2 h
  simp only [List.mem_cons, List.not_mem_nil, or_false] at hop
  rcases hop with rfl | rfl | rfl
  · cases htier
  · cases htier
  · cases htier

theorem Particle.isHead_of_mem_unaryOperators {op : Particle} (h : op ∈ Grammar.unaryOperators) :
    op.IsHead := by
  simp only [Grammar.unaryOperators, List.mem_cons, List.not_mem_nil, or_false] at h
  rcases h with rfl | rfl
  · exact isHead (by decide)
  · exact isHead (by decide)

namespace Sexp

variable (convert : Converter)

/-- The word, if the nested list is one. -/
def word? : Sexp → Option String
  | atom s => some s
  | list _ => none

/-- The name or the number that a word denotes. -/
def leaf? (s : String) : Option Expr :=
  if s.toList.head?.any isNameStart then some (.name s .origin)
  else (convert s).toOption.map (.number · .origin)

mutual

/-- The expression that is written, without positions. -/
def expr? : Sexp → Option Expr
  | atom s => leaf? convert s
  | list (atom head :: members) =>
    match Head.ofWord? head, members with
    | some .group, [e] => return .group (← e.expr?) .origin
    | some .choice, [c, t, e] => return .ternary (← c.expr?) (← t.expr?) (← e.expr?) .origin
    | some .call, atom f :: args => return .call f (← exprs? args) .origin
    | some .function, [list ps, body] => return .lambda (← ps.mapM word?) (← body.expr?) .origin
    | some .list, es => return .list (← exprs? es) .origin
    | some .range, [atom start, atom n] =>
      return .range (← (convert start).toOption) (digitsValue n.toList) none .origin
    | some .range, [atom start, atom n, atom step] =>
      return .range (← (convert start).toOption) (digitsValue n.toList)
        (← (convert step).toOption) .origin
    | some (.operator op), [e] => return .unary op (← e.expr?) .origin
    | some (.operator op), [l, r] => return .binary op (← l.expr?) (← r.expr?) .origin
    | _, _ => none
  | list _ => none

/-- The expressions that are written one after the other. -/
def exprs? : List Sexp → Option (List Expr)
  | [] => some []
  | x :: xs => return (← x.expr?) :: (← exprs? xs)

end

/-- The statement that is written. -/
def stmt? : Sexp → Option Stmt
  | list [atom "=", atom s, value] => return .assign s (← value.expr? convert) .origin
  | x => return .expression (← x.expr? convert) .origin

end Sexp

/-! ## Words for values and names -/

/-- An optional sign, digits, and other characters that numbers are written with. -/
def IsNumberText (cs : List Char) : Prop :=
  ∃ (negative : Bool) (ds rest : List Char),
    cs = (if negative then ['-'] else []) ++ (ds ++ rest) ∧ IsDigits ds ∧ Plain rest

theorem Number.Numeral.WellFormed.isNumberText {n : Numeral} (h : n.WellFormed) :
    IsNumberText n.spelled :=
  ⟨n.negative, n.whole, _, rfl, h.whole, (List.forall_mem_append.1
    (List.forall_mem_append.1 h.plain).2).2⟩

namespace IsNumberText

variable {cs : List Char} (h : IsNumberText cs)

include h

theorem append {rest : List Char} (hrest : Plain rest) : IsNumberText (cs ++ rest) := by
  obtain ⟨negative, ds, more, rfl, hds, hmore⟩ := h
  refine ⟨negative, ds, more ++ rest, ?_, hds, hmore.append hrest⟩
  simp only [List.append_assoc]

theorem isWord : Sexp.IsWord cs := by
  obtain ⟨negative, ds, rest, rfl, hds, hrest⟩ := h
  have hplain : Plain ((if negative then ['-'] else []) ++ (ds ++ rest)) :=
    (plain_sign negative).append ((plain_digits hds.2).append hrest)
  refine ⟨?_, List.all_eq_true.2 fun c hc => ?_⟩
  · exact List.append_ne_nil_of_right_ne_nil _ (List.append_ne_nil_of_left_ne_nil hds.1 _)
  · rcases Bool.or_eq_true_iff.1 (hplain c hc) with hdigit | hother
    · exact Text.of_isDigit (P := fun c => Sexp.isWordChar c = true) (by decide) hdigit
    · have hall : "+-.E/".toList.all Sexp.isWordChar = true := by decide
      exact List.all_eq_true.1 hall c (List.contains_iff_mem.1 hother)

/-- The text of a number does not start like a name. -/
theorem any_isNameStart : cs.head?.any isNameStart = false := by
  obtain ⟨negative, ds, rest, rfl, hds, hrest⟩ := h
  cases negative with
  | true => exact (by decide : isNameStart '-' = false)
  | false =>
    obtain ⟨c, r, rfl, hc⟩ := hds.exists_cons
    exact isNameStart_of_isDigit hc

end IsNumberText

theorem IsName.isWord {cs : List Char} (h : IsName cs) : Sexp.IsWord cs := by
  have hrest : ∀ c, isNameRest c = true → Sexp.isWordChar c = true := by
    intro c hc
    have hall : " ()".toList.all (fun c => !isNameRest c) = true := by decide
    rw [Sexp.isWordChar, Bool.not_eq_true', Bool.eq_false_iff]
    intro hmem
    have hnot := List.all_eq_true.1 hall c (List.contains_iff_mem.1 hmem)
    rw [hc] at hnot
    cases hnot
  obtain ⟨c, rest, rfl, hc, hr⟩ := h
  refine ⟨List.cons_ne_nil c rest, List.all_eq_true.2 (List.forall_mem_cons.2
    ⟨hrest c ?_, fun d hd => hrest d (hr d hd)⟩)⟩
  rw [isNameRest, hc, Bool.true_or, Bool.true_or]

/-- The values of exact types. -/
inductive Value.Exact : Value → Prop where
  | integer (n : Int) : Exact (.integer n)
  | fixedInt (w : IntType) (n : Int) : Exact (.fixedInt w n)
  | decimal (negative : Bool) (m : Nat) (e : Int) : Exact (.decimal (.finite negative m e))
  | fraction (q : Rat) : Exact (.fraction q)

theorem Value.Exact.isNumberText {v : Value} (h : v.Exact) : IsNumberText v.text.toList := by
  have hinteger : ∀ n : Int, IsNumberText (toString n).toList := by
    intro n
    rw [← Numeral.spelled_ofInt, String.toList_ofList]
    exact (Numeral.wellFormed_ofInt n).isNumberText
  cases h with
  | integer n | fixedInt w n => exact hinteger n
  | decimal negative m e =>
    obtain ⟨n, hn, -, -, -, htext⟩ := Decimal.exists_numeral negative m e
    rw [text, htext, String.toList_ofList]
    exact hn.isNumberText
  | fraction q =>
    rw [text, fractionText]
    split
    · exact hinteger q.num
    · have hden : Plain ('/' :: (toString q.den).toList) := by
        rw [Nat.toString_eq_repr, Nat.toList_repr]
        exact .cons rfl (plain_digits (isDigits_digitsOf q.den).2)
      rw [String.toList_append, String.toList_append, List.append_assoc]
      exact (hinteger q.num).append hden

theorem Value.Exact.widened_eq {v : Value} (h : v.Exact) : v.widened = v := by
  cases h with
  | integer | fixedInt | decimal | fraction => rfl

/-- An exact type makes exact values of literals. -/
theorem NamedType.exact_of_converter {t : NamedType} (ht : t.IsExact) {text : List Char}
    (htext : IsNumeral text) {v : Value} (h : t.converter (String.ofList text) = .ok v) :
    v.Exact := by
  obtain ⟨value, range, n, hintegral, rfl⟩ | ⟨-, d, hd, rfl⟩ | ⟨-, q, rfl⟩ := ht.cases htext h
  · obtain ⟨-, rfl, -⟩ | ⟨w, -, rfl, -⟩ := hintegral.cases
    · exact .integer n
    · exact .fixedInt w n
  · rw [Decimal.eq_finite_of_ofNumeral hd]
    exact .decimal _ _ _
  · exact .fraction q

/-! ## What is written can be read -/

/-- An expression in parenthesised notation. -/
abbrev Expr.toSexp (e : Expr) : Sexp := e.toTree.toSexp

/-- The notation is clean and read as the expression, apart from positions. -/
structure Expr.Readable (convert : Converter) (e : Expr) : Prop where
  clean : e.toSexp.Clean
  read : e.toSexp.expr? convert = some e.unplaced

/-- The value is written as a word that starts like a number, and is read back from it. -/
structure Value.Notated (convert : Converter) (v : Value) : Prop where
  exact : v.Exact
  read : convert v.text = .ok v

/-- The number or the name behind the mark can be told from the word that it is written as. -/
def Mark.Notated (convert : Converter) : Mark → Prop
  | .lexeme (.number v) => v.Notated convert
  | .lexeme (.name s) => IsName s.toList
  | _ => True

theorem Mark.mem_separated {m : Mark} {item : List Mark} {items : List (List Mark)}
    (hm : m ∈ item) (hitem : item ∈ items) : m ∈ separated items := by
  cases items with
  | nil => cases hitem
  | cons first others =>
    rcases List.mem_cons.1 hitem with rfl | hitem
    · exact List.mem_append_left _ hm
    · exact List.mem_append_right _
        (List.mem_flatMap.2 ⟨item, hitem, List.mem_cons_of_mem _ hm⟩)

namespace Expr

open Sexp

variable {convert : Converter}

theorem toSexps_toTrees (es : List Expr) : Tree.toSexps (toTrees es) = es.map toSexp := by
  induction es with
  | nil => rfl
  | cons e es ih => rw [toTrees, Tree.toSexps, ih, List.map_cons]

theorem toSexp_call (s : String) (args : List Expr) (pos : Position) :
    (call s args pos).toSexp = .list (.atom "call" :: .atom s :: args.map toSexp) := by
  rw [← toSexps_toTrees]
  rfl

theorem toSexp_list (es : List Expr) (pos : Position) :
    (list es pos).toSexp = .list (.atom "list" :: es.map toSexp) := by
  rw [← toSexps_toTrees]
  rfl

theorem exprs?_map {es : List Expr} (h : ∀ e ∈ es, e.Readable convert) :
    exprs? convert (es.map toSexp) = some (mapPosEach (fun _ => .origin) es) := by
  induction es with
  | nil => rfl
  | cons e es ih =>
    obtain ⟨he, hes⟩ := List.forall_mem_cons.1 h
    rw [List.map_cons, exprs?, he.read, ih hes]
    rfl

/-! ### The constructs, one by one -/

namespace Readable

theorem number {v : Value} (hv : v.Notated convert) (pos : Position) :
    (number v pos).Readable convert := by
  have htext := hv.exact.isNumberText
  refine ⟨.atom htext.isWord, ?_⟩
  change leaf? convert v.text = _
  rw [leaf?, htext.any_isNameStart, hv.read]
  rfl

theorem name {s : String} (hs : IsName s.toList) (pos : Position) :
    (name s pos).Readable convert := by
  refine ⟨.atom hs.isWord, ?_⟩
  obtain ⟨c, rest, hcs, hc, -⟩ := hs
  change leaf? convert s = _
  rw [leaf?, hcs, List.head?_cons, Option.any_some, if_pos hc]
  rfl

theorem group {e : Expr} (he : e.Readable convert) (pos : Position) :
    (group e pos).Readable convert := by
  refine ⟨.headed (by decide) (List.forall_mem_singleton.2 he.clean), ?_⟩
  change (do
    let e ← e.toSexp.expr? convert
    return Expr.group e .origin) = _
  rw [he.read]
  rfl

theorem ternary {c t e : Expr} (hc : c.Readable convert) (ht : t.Readable convert)
    (he : e.Readable convert) (pos : Position) : (ternary c t e pos).Readable convert := by
  refine ⟨.headed (by decide) (List.forall_mem_cons.2 ⟨hc.clean, List.forall_mem_cons.2
    ⟨ht.clean, List.forall_mem_singleton.2 he.clean⟩⟩), ?_⟩
  change (do
    let c ← c.toSexp.expr? convert
    let t ← t.toSexp.expr? convert
    let e ← e.toSexp.expr? convert
    return Expr.ternary c t e .origin) = _
  rw [hc.read, ht.read, he.read]
  rfl

theorem unary {op : Particle} {e : Expr} (hop : op.IsHead) (he : e.Readable convert)
    (pos : Position) : (unary op e pos).Readable convert := by
  refine ⟨.headed hop.word (List.forall_mem_singleton.2 he.clean), ?_⟩
  change (Sexp.list [.atom op.symbol, e.toSexp]).expr? convert = _
  unfold expr?
  simp only [hop.head, he.read]
  rfl

theorem binary {op : Particle} {l r : Expr} (hop : op.IsHead) (hl : l.Readable convert)
    (hr : r.Readable convert) (pos : Position) : (binary op l r pos).Readable convert := by
  refine ⟨.headed hop.word (List.forall_mem_cons.2
    ⟨hl.clean, List.forall_mem_singleton.2 hr.clean⟩), ?_⟩
  change (Sexp.list [.atom op.symbol, l.toSexp, r.toSexp]).expr? convert = _
  unfold expr?
  simp only [hop.head, hl.read, hr.read]
  rfl

theorem call {s : String} {args : List Expr} (hs : IsName s.toList)
    (hargs : ∀ a ∈ args, a.Readable convert) (pos : Position) :
    (call s args pos).Readable convert := by
  constructor
  · rw [toSexp_call]
    refine .headed (by decide) (List.forall_mem_cons.2 ⟨.atom hs.isWord, ?_⟩)
    exact List.forall_mem_map.2 fun e he => (hargs e he).clean
  · rw [toSexp_call]
    change (do
      let es ← exprs? convert (args.map toSexp)
      return Expr.call s es .origin) = _
    rw [exprs?_map hargs]
    rfl

theorem list {es : List Expr} (hes : ∀ e ∈ es, e.Readable convert) (pos : Position) :
    (list es pos).Readable convert := by
  constructor
  · rw [toSexp_list]
    exact .headed (by decide) (List.forall_mem_map.2 fun e he => (hes e he).clean)
  · rw [toSexp_list]
    change (do
      let es ← exprs? convert (es.map toSexp)
      return Expr.list es .origin) = _
    rw [exprs?_map hes]
    rfl

theorem lambda {ps : List String} {body : Expr} (hps : ∀ s ∈ ps, IsName s.toList)
    (hbody : body.Readable convert) (pos : Position) : (lambda ps body pos).Readable convert := by
  have hwords : (ps.map Sexp.atom).mapM word? = some ps := by
    induction ps with
    | nil => rfl
    | cons p ps ih =>
      rw [List.map_cons, List.mapM_cons, ih fun s hs => hps s (List.mem_cons_of_mem _ hs)]
      rfl
  refine ⟨.headed (by decide) (List.forall_mem_cons.2 ⟨.list ?_,
    List.forall_mem_singleton.2 hbody.clean⟩), ?_⟩
  · exact List.forall_mem_map.2 fun s hs => .atom (hps s hs).isWord
  · change (do
      let ps ← (ps.map Sexp.atom).mapM word?
      let body ← body.toSexp.expr? convert
      return Expr.lambda ps body .origin) = _
    rw [hwords, hbody.read]
    rfl

theorem range {start : Value} {step : Option Value} (hstart : start.Notated convert)
    (hstep : ∀ v ∈ step, v.Notated convert) (length : Nat) (pos : Position) :
    (range start length step pos).Readable convert := by
  have hword : ∀ {v : Value}, v.Notated convert → Clean (.atom v.widened.text) := by
    intro v hv
    rw [hv.exact.widened_eq]
    exact .atom hv.exact.isNumberText.isWord
  have hread : ∀ {v : Value}, v.Notated convert → convert v.widened.text = .ok v := by
    intro v hv
    rw [hv.exact.widened_eq, hv.read]
  have hlength : Clean (.atom (toString (length : Int))) :=
    .atom (Value.Exact.integer length).isNumberText.isWord
  have hdigits : digitsValue (toString (length : Int)).toList = length := by
    have htext : toString (length : Int) = Nat.repr length := rfl
    rw [htext, Nat.toList_repr]
    exact digitsValue_digitsOf length
  cases step with
  | none =>
    refine ⟨.headed (by decide) (List.forall_mem_cons.2
      ⟨hword hstart, List.forall_mem_singleton.2 hlength⟩), ?_⟩
    change (do
      let v ← (convert start.widened.text).toOption
      return Expr.range v (digitsValue (toString (length : Int)).toList) none .origin) = _
    rw [hread hstart, hdigits]
    rfl
  | some step =>
    have hstep := hstep step rfl
    refine ⟨.headed (by decide) (List.forall_mem_cons.2 ⟨hword hstart, List.forall_mem_cons.2
      ⟨hlength, List.forall_mem_singleton.2 (hword hstep)⟩⟩), ?_⟩
    change (do
      let v ← (convert start.widened.text).toOption
      let w ← (convert step.widened.text).toOption
      return Expr.range v (digitsValue (toString (length : Int)).toList) (some w) .origin) = _
    rw [hread hstart, hread hstep, hdigits]
    rfl

end Readable

/-- A stratified expression is read back from its notation. -/
theorem Stratified.readable {e : Expr} (h : e.Stratified)
    (hmarks : ∀ m ∈ e.yield, m.Notated convert) : e.Readable convert := by
  induction h with
  | number v pos => exact .number (hmarks _ List.mem_cons_self) pos
  | name s pos => exact .name (hmarks _ List.mem_cons_self) pos
  | group _ ih => exact .group (ih fun m hm => hmarks m (by simp [yield, hm])) _
  | unary hop _ _ ih =>
    exact .unary (Particle.isHead_of_mem_unaryOperators hop)
      (ih fun m hm => hmarks m (by simp [yield, hm])) _
  | binary t hop _ _ _ _ _ ihl ihr =>
    exact .binary (Particle.isHead_of_mem_operators hop)
      (ihl fun m hm => hmarks m (by simp [yield, hm]))
      (ihr fun m hm => hmarks m (by simp [yield, hm])) _
  | ternary _ _ _ _ _ ihc iht ihe =>
    exact .ternary (ihc fun m hm => hmarks m (by simp [yield, hm]))
      (iht fun m hm => hmarks m (by simp [yield, hm]))
      (ihe fun m hm => hmarks m (by simp [yield, hm])) _
  | @call s args pos _ ih =>
    refine .call (hmarks _ List.mem_cons_self) (fun a ha => ih a ha fun m hm => hmarks m ?_) pos
    have hargs : m ∈ Mark.separated (yields args) :=
      Mark.mem_separated hm (yields_eq_map args ▸ List.mem_map_of_mem ha)
    simp [yield, hargs]
  | @lambda ps body pos _ ih =>
    refine .lambda (fun s hs => hmarks (.name s) ?_)
      (ih fun m hm => hmarks m (by simp [yield, hm])) pos
    have hparameters : Mark.name s ∈ Mark.separated (ps.map fun s => [Mark.name s]) :=
      Mark.mem_separated List.mem_cons_self (List.mem_map_of_mem hs)
    simp [yield, hparameters]
  | @list es pos _ ih =>
    refine .list (fun e he => ih e he fun m hm => hmarks m ?_) pos
    have hes : m ∈ Mark.separated (yields es) :=
      Mark.mem_separated hm (yields_eq_map es ▸ List.mem_map_of_mem he)
    simp [yield, hes]
  | range start length step pos =>
    refine .range (hmarks (.number start) (by simp [yield])) (fun v hv => hmarks (.number v) ?_)
      length pos
    cases hv
    simp [yield]

section Positions

variable (f : Position → Position)

mutual

/-- The notation does not show positions. -/
theorem toSexp_mapPos : ∀ e : Expr, (e.mapPos f).toTree.toSexp = e.toTree.toSexp
  | number .. | name .. | range .. => rfl
  | group e _ | unary _ e _ | lambda _ e _ => by
    simp only [mapPos, toTree, Tree.toSexp, Tree.toSexps, toSexp_mapPos e]
  | binary _ l r _ => by
    simp only [mapPos, toTree, Tree.toSexp, Tree.toSexps, toSexp_mapPos l, toSexp_mapPos r]
  | ternary c t e _ => by
    simp only [mapPos, toTree, Tree.toSexp, Tree.toSexps, toSexp_mapPos c, toSexp_mapPos t,
      toSexp_mapPos e]
  | call _ es _ | list es _ => by
    simp only [mapPos, toTree, Tree.toSexp, toSexps_mapPosEach es]

theorem toSexps_mapPosEach : ∀ es : List Expr,
    Tree.toSexps (toTrees (mapPosEach f es)) = Tree.toSexps (toTrees es)
  | [] => rfl
  | e :: es => by
    simp only [mapPosEach, toTrees, Tree.toSexps, toSexp_mapPos e, toSexps_mapPosEach es]

end

end Positions

/-- No expression is written like an assignment. -/
theorem Stratified.toSexp_ne_assign {e : Expr} (h : e.Stratified) (s : String) (x : Sexp) :
    e.toSexp ≠ .list [.atom "=", .atom s, x] := by
  intro heq
  cases h with
  | number | name => cases heq
  | group | ternary | call | lambda | list | range =>
    exact absurd (Sexp.atom.inj (List.cons.inj (Sexp.list.inj heq)).1) (by decide)
  | unary => cases (List.cons.inj (List.cons.inj (Sexp.list.inj heq)).2).2
  | @binary op l r pos t hop =>
    have hsymbol : op.symbol = "=" := Sexp.atom.inj (List.cons.inj (Sexp.list.inj heq)).1
    have hhead := (Particle.isHead_of_mem_operators hop).head
    rw [hsymbol] at hhead
    obtain rfl : Particle.assign = op := Head.operator.inj (Option.some.inj hhead)
    exact Tier.notMem_operators rfl t hop

end Expr

namespace Stmt

/-- A statement in parenthesised notation. -/
abbrev toSexp (s : Stmt) : Sexp := s.toTree.toSexp

theorem text_unplaced (s : Stmt) : s.unplaced.text = s.text := by
  cases s with
  | assign x e pos | expression e pos =>
    simp only [unplaced, mapPos, text, toTree, Tree.toSexp, Tree.toSexps, e.toSexp_mapPos]

/-- The notation of a statement is clean, and the statement is read back from it. -/
theorem Stratified.readable {convert : Converter} {s : Stmt} (h : s.Stratified)
    (hmarks : ∀ m ∈ s.yield, m.Notated convert) :
    s.toSexp.Clean ∧ s.toSexp.stmt? convert = some s.unplaced := by
  cases s with
  | assign x e pos =>
    have he : e.Readable convert :=
      Expr.Stratified.readable h fun m hm => hmarks m (.tail _ (.tail _ hm))
    have hx : IsName x.toList := hmarks _ List.mem_cons_self
    refine ⟨.headed (by decide) (List.forall_mem_cons.2
      ⟨.atom hx.isWord, List.forall_mem_singleton.2 he.clean⟩), ?_⟩
    change (do
      let e ← e.toSexp.expr? convert
      return Stmt.assign x e .origin) = _
    rw [he.read]
    rfl
  | expression e pos =>
    have he : e.Readable convert := Expr.Stratified.readable h hmarks
    refine ⟨he.clean, ?_⟩
    have hstmt : e.toSexp.stmt? convert = (do
        let e ← e.toSexp.expr? convert
        return Stmt.expression e .origin) := by
      unfold Sexp.stmt?
      split
      · next hx => exact absurd hx (Expr.Stratified.toSexp_ne_assign h _ _)
      · rfl
    change e.toSexp.stmt? convert = _
    rw [hstmt, he.read]
    rfl

end Stmt

/-! ## Sources -/

/-- What is written of the tokens of a source can be read back. -/
theorem Mark.notated_of_isolated {t : NamedType} (ht : t.IsExact) {token : Token}
    (htoken : token.Isolated t.converter) {m : Mark} (hm : m.Matches token.lexeme)
    (hwritable : m.isWritable = true) : m.Notated t.converter := by
  cases m with
  | length n => trivial
  | lexeme l =>
    obtain rfl : l = token.lexeme := hm
    obtain ⟨shape, hshape, htake⟩ := htoken.taken
    have hspells := Fragment.spells_of_take? (htake [] (by rintro c ⟨⟩))
    cases shape with
    | lineBreak | comment | particle =>
      rw [← Except.ok.inj hshape]
      trivial
    | word =>
      rw [← Except.ok.inj hshape]
      exact hspells
    | numeral =>
      rw [Shape.lexeme] at hshape
      cases hv : t.converter token.text with
      | error e =>
        rw [hv] at hshape
        cases hshape
      | ok v =>
        rw [hv] at hshape
        rw [← Except.ok.inj hshape] at hwritable ⊢
        rw [← String.ofList_toList (s := token.text)] at hv
        exact ⟨NamedType.exact_of_converter ht hspells hv,
          NamedType.converter_text ht hspells hv hwritable⟩

section Sources

variable {t : NamedType} (ht : t.IsExact) {c : Config} (hc : c.convert = t.converter)
  {source : String} {ss : List Stmt} (h : parseProgram c source = .ok ss)

include ht hc h

/-- Every statement of a source that can be written is read back from its notation. -/
theorem readable_of_parseProgram {s : Stmt} (hs : s ∈ ss) (hwritable : s.isWritable = true) :
    s.toSexp.Clean ∧ s.toSexp.stmt? t.converter = some s.unplaced := by
  have hcases := parseProgram_cases c source
  rw [h] at hcases
  obtain ⟨-, hprogram⟩ := hcases
  have hspelled : Spelled (ss.flatMap Stmt.yield) (c.session source).ahead.tokens :=
    hprogram.yield (Config.definite_session (hc ▸ t.converter_ne_nothing) source)
  have hmarks : ∀ m ∈ ss.flatMap Stmt.yield, m.isWritable = true → m.Notated t.converter := by
    refine forall_mem_of_forall₂ hspelled fun m token htoken hm => ?_
    have hisolated := (Cursor.start source c.filename c.convert).isolated_of_ahead token htoken
    exact Mark.notated_of_isolated ht (hc ▸ hisolated) hm
  refine (hprogram.stratified s hs).readable fun m hm => hmarks m ?_ ?_
  · exact List.mem_flatMap.2 ⟨s, hs, hm⟩
  · exact List.all_eq_true.1 hwritable m hm

end Sources

/-- The lines of a program are the texts of its statements, if they can all be written. -/
theorem Stmt.eq_map_text_of_mapM_format {ss : List Stmt} {lines : List String}
    (h : ss.mapM format = .ok lines) : lines = ss.map text ∧ ∀ s ∈ ss, s.isWritable = true := by
  rw [mapM_format] at h
  split at h
  · next hall => exact ⟨(Except.ok.inj h).symm, List.all_eq_true.1 hall⟩
  · cases h

/-- The notation shows all of a program but the positions.  Two sources in one exact type have the
same lines exactly if their statements are the same up to positions. -/
theorem parseProgram_readback {t : NamedType} (ht : t.IsExact) {c c' : Config}
    (hc : c.convert = t.converter) (hc' : c'.convert = t.converter) {source source' : String}
    {ss ss' : List Stmt} (h : parseProgram c source = .ok ss)
    (h' : parseProgram c' source' = .ok ss') {lines lines' : List String}
    (hlines : ss.mapM Stmt.format = .ok lines) (hlines' : ss'.mapM Stmt.format = .ok lines') :
    lines = lines' ↔ ss.map Stmt.unplaced = ss'.map Stmt.unplaced := by
  obtain ⟨rfl, hwritable⟩ := Stmt.eq_map_text_of_mapM_format hlines
  obtain ⟨rfl, hwritable'⟩ := Stmt.eq_map_text_of_mapM_format hlines'
  constructor
  · intro htexts
    have hsame : List.Forall₂ (fun s s' => s.text = s'.text) ss ss' := by
      rwa [← List.forall₂_eq_eq_eq, List.forall₂_map_left_iff, List.forall₂_map_right_iff] at htexts
    refine map_eq_map_of_forall₂ (forall₂_index hsame) fun s s' ⟨htext, k, hk, hk'⟩ => ?_
    have hs := List.mem_of_getElem? hk
    have hs' := List.mem_of_getElem? hk'
    obtain ⟨hclean, hread⟩ := readable_of_parseProgram ht hc h hs (hwritable s hs)
    obtain ⟨hclean', hread'⟩ := readable_of_parseProgram ht hc' h' hs' (hwritable' s' hs')
    rw [Sexp.render_inj hclean hclean' htext, hread'] at hread
    exact Option.some.inj hread.symm
  · intro hunplaced
    have htexts := congrArg (List.map Stmt.text) hunplaced
    simpa only [List.map_map, Function.comp_def, Stmt.text_unplaced] using htexts

/-- Names that are spelled like heads, and one that is the text of a decimal. -/
def headSource : String :=
  "list = fn(group, Infinity) -1 - -group ? [0.50 .. 2 ; 1] : call\x7brange\x7d"

/-- The same program on several lines, with another spelling of the length. -/
def spreadSource : String :=
  "list = // name\nfn (group, Infinity)\n-1 - - group ?\n[0.50 .. 2.0 ; 01] : call \x7b range \x7d"

/-- What both are written as. -/
def headLine : String :=
  "(= list (fn (group Infinity) (? (- -1 (- group)) (range 0.50 2 1) (call call range))))"

theorem parseProgram_readback_heads :
    ∃ ss ss', parseProgram ⟨NamedType.decimal.converter, anonymous, 2⟩ headSource = .ok ss ∧
      parseProgram ⟨NamedType.decimal.converter, "<stdin>", 8⟩ spreadSource = .ok ss' ∧
      ss.mapM Stmt.format = .ok [headLine] ∧ ss'.mapM Stmt.format = .ok [headLine] ∧
      ss.map Stmt.unplaced = ss'.map Stmt.unplaced := by
  have hwritten : ∀ (c : Config) (source : String),
      ((parseProgram c source).toOption.bind fun ss => (ss.mapM Stmt.format).toOption) =
        some [headLine] →
      ∃ ss, parseProgram c source = .ok ss ∧ ss.mapM Stmt.format = .ok [headLine] := by
    intro c source hrun
    cases h : parseProgram c source with
    | error e =>
      rw [h] at hrun
      cases hrun
    | ok ss =>
      rw [h] at hrun
      change (ss.mapM Stmt.format).toOption = some [headLine] at hrun
      refine ⟨ss, rfl, ?_⟩
      cases hlines : ss.mapM Stmt.format with
      | error e =>
        rw [hlines] at hrun
        cases hrun
      | ok lines =>
        rw [hlines] at hrun
        exact congrArg _ (Option.some.inj hrun)
  obtain ⟨ss, h, hlines⟩ :=
    hwritten ⟨NamedType.decimal.converter, anonymous, 2⟩ headSource (by decide +kernel)
  obtain ⟨ss', h', hlines'⟩ :=
    hwritten ⟨NamedType.decimal.converter, "<stdin>", 8⟩ spreadSource (by decide +kernel)
  have hconvert : ∀ convert filename reach, Config.convert ⟨convert, filename, reach⟩ = convert :=
    fun _ _ _ => rfl
  have hiff := parseProgram_readback (t := .decimal) trivial (hconvert _ _ _) (hconvert _ _ _) h h'
    hlines hlines'
  exact ⟨ss, ss', h, h', hlines, hlines', hiff.1 rfl⟩

end ExprFront
