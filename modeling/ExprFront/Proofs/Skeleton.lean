import ExprFront.Proofs.Layout
import ExprFront.Proofs.NumberTypes

/-!
# Parsing depends on the skeleton of a source

The skeleton of a token is all that the grammar learns of it: its class, which particle it is,
whether a name is the word that starts a function, and whether a number is a natural number, as
the length of a range has to be.  Two sources whose tokens have the same skeletons, one by one, are
parsed alike, whatever their names, texts, layouts and number types are, unless the parse comes to a
length that is an undefined decimal in one of them.

* `Token.skeleton` computes the skeleton, and `Expr.outline` the shape of a tree: its nodes and
  operators, with all leaves blank.
* `Likeness.sameSkeleton` relates tokens of one skeleton that stand at one index.  It is a
  likeness, so that `parseProgram_likeAhead` applies.
* Trees that are alike in any way have one outline (`Expr.Like.outline_eq`).

Which leaf comes from which token is known from each source alone: the leaves are, in order, the
names and numbers among its tokens.  So leaves at one place of two trees of one outline come from
tokens of one index.

Main result: `parseProgram_skeleton`.
-/

namespace ExprFront

open Grammar (lambdaWord lengthFailure)

/-! ## Skeletons and outlines -/

/-- What the grammar learns of a token. -/
inductive Skeleton where
  /-- A number, and whether it is a natural number. -/
  | number (whole : Bool)
  /-- A name, and whether it is the word that starts a function. -/
  | name (word : Bool)
  | particle (p : Particle)
  | skip
  | endOfInput
deriving DecidableEq, Repr

def Lexeme.skeleton : Lexeme → Skeleton
  | number v => .number v.whole?.isSome
  | name s => .name (s = lambdaWord)
  | particle p => .particle p
  | skip => .skip
  | endOfInput => .endOfInput

def Token.skeleton (t : Token) : Skeleton := t.lexeme.skeleton

namespace Expr

mutual

/-- The nodes and operators of an expression, without names, numbers and positions. -/
def outline : Expr → Expr
  | number _ _ => .number .nothing .origin
  | name _ _ => .name "" .origin
  | group e _ => .group e.outline .origin
  | unary op e _ => .unary op e.outline .origin
  | binary op l r _ => .binary op l.outline r.outline .origin
  | ternary c t e _ => .ternary c.outline t.outline e.outline .origin
  | call _ args _ => .call "" (outlineEach args) .origin
  | lambda ps body _ => .lambda (ps.map fun _ => "") body.outline .origin
  | list values _ => .list (outlineEach values) .origin
  | range _ _ step _ => .range .nothing 0 (step.map fun _ => .nothing) .origin

/-- The outlines of several expressions. -/
def outlineEach : List Expr → List Expr
  | [] => []
  | e :: es => e.outline :: outlineEach es

end

theorem outlineEach_eq_map (es : List Expr) : outlineEach es = es.map outline := by
  induction es with
  | nil => rfl
  | cons e es ih => rw [outlineEach, ih, List.map_cons]

end Expr

/-- The form and the operators of a statement, without names, numbers and positions. -/
def Stmt.outline : Stmt → Stmt
  | assign _ e _ => .assign "" e.outline .origin
  | expression e _ => .expression e.outline .origin

section Outlines

variable {L : Likeness}

/-- Trees that are alike have one outline. -/
theorem Expr.Like.outline_eq {e e' : Expr} (h : Expr.Like L e e') : e.outline = e'.outline := by
  induction h with
  | number | name => rfl
  | group _ _ ih | unary _ _ _ ih => rw [outline, outline, ih]
  | binary _ _ _ _ ihl ihr => rw [outline, outline, ihl, ihr]
  | ternary _ _ _ _ ihc iht ihe => rw [outline, outline, ihc, iht, ihe]
  | call _ hargs _ _ ih =>
    rw [outline, outline, outlineEach_eq_map, outlineEach_eq_map, map_eq_map_of_forall₂ hargs ih]
  | lambda hps _ _ ih =>
    rw [outline, outline, ih, map_eq_map_of_forall₂ hps fun _ _ _ => rfl]
  | list hes _ _ ih =>
    rw [outline, outline, outlineEach_eq_map, outlineEach_eq_map, map_eq_map_of_forall₂ hes ih]
  | range _ _ hstep _ =>
    cases hstep with
    | none => rfl
    | some _ => rfl

theorem Stmt.Like.outline_eq {s s' : Stmt} (h : Stmt.Like L s s') : s.outline = s'.outline := by
  cases h with
  | assign _ he _ => rw [outline, outline, he.outline_eq]
  | expression he _ => rw [outline, outline, he.outline_eq]

end Outlines

/-! ## Tokens of one skeleton -/

/-- The two tokens stand at the same index of the two lists. -/
def Abreast (ts ts' : List Token) (t t' : Token) : Prop :=
  ∃ k : Nat, ts[k]? = some t ∧ ts'[k]? = some t'

/-- Neither number is nothing, and both are natural numbers or neither is. -/
structure Value.SameSkeleton (v v' : Value) : Prop where
  left : v ≠ .nothing
  right : v' ≠ .nothing
  whole : v.whole?.isSome = v'.whole?.isSome

theorem Lexeme.like_of_skeleton {l l' : Lexeme} (h : l.skeleton = l'.skeleton)
    (hl : l ≠ .number .nothing) (hl' : l' ≠ .number .nothing) :
    Lexeme.Like Value.SameSkeleton (fun s s' => s = lambdaWord ↔ s' = lambdaWord) l l' := by
  cases l with
  | number v =>
    cases l' with
    | number v' =>
      refine .number ⟨fun hv => hl (by rw [hv]), fun hv => hl' (by rw [hv]), ?_⟩
      exact Skeleton.number.inj h
    | name | particle | skip | endOfInput => cases h
  | name s =>
    cases l' with
    | name s' => exact .name (by simpa using Skeleton.name.inj h)
    | number | particle | skip | endOfInput => cases h
  | particle p =>
    cases l' with
    | particle p' =>
      cases Skeleton.particle.inj h
      exact .particle p
    | number | name | skip | endOfInput => cases h
  | skip =>
    cases l' with
    | skip => exact .skip
    | number | name | particle | endOfInput => cases h
  | endOfInput =>
    cases l' with
    | endOfInput => exact .endOfInput
    | number | name | particle | skip => cases h

theorem optionRel_of_isSome_eq {α β : Type} {r : Option α} {r' : Option β}
    (h : r.isSome = r'.isSome) : Option.Rel (fun _ _ => True) r r' := by
  cases r with
  | none =>
    cases r' with
    | none => exact .none
    | some b => cases h
  | some a =>
    cases r' with
    | none => cases h
    | some b => exact .some trivial

/-- Tokens of one skeleton correspond if they stand at one index.  Positions, names, and the
numbers themselves do not matter. -/
def Likeness.sameSkeleton (ts ts' : List Token) : Likeness where
  token t t' := Abreast ts ts' t t' ∧ t.skeleton = t'.skeleton ∧
    t.lexeme ≠ .number .nothing ∧ t'.lexeme ≠ .number .nothing
  value := Value.SameSkeleton
  name s s' := s = lambdaWord ↔ s' = lambdaWord
  place _ _ := True
  length _ _ := True
  lexeme_of_token h := Lexeme.like_of_skeleton h.2.1 h.2.2.1 h.2.2.2
  place_of_token _ := trivial
  word_of_name h := h
  whole_of_value h := optionRel_of_isSome_eq h.whole
  present_of_value h := by
    rw [Value.present?_of_ne_nothing h.left, Value.present?_of_ne_nothing h.right]
    exact .some h

/-- Definite tokens with the same skeletons are alike, one by one. -/
theorem forall₂_sameSkeleton {ts ts' : List Token} (hts : Definite ts) (hts' : Definite ts')
    (h : ts.map Token.skeleton = ts'.map Token.skeleton) :
    List.Forall₂ (Likeness.sameSkeleton ts ts').token ts ts' := by
  have hsame : List.Forall₂ (fun t t' => t.skeleton = t'.skeleton) ts ts' := by
    rw [← List.forall₂_eq_eq_eq, List.forall₂_map_left_iff, List.forall₂_map_right_iff] at h
    exact h
  refine (forall₂_index hsame).imp fun t t' ⟨hskeleton, k, hk, hk'⟩ => ?_
  exact ⟨⟨k, hk, hk'⟩, hskeleton, hts t (List.mem_of_getElem? hk),
    hts' t' (List.mem_of_getElem? hk')⟩

/-! ## Sources -/

/-- The statements of a source yield its significant tokens. -/
theorem spelled_of_parseProgram {c : Config} {source : String} {ss : List Stmt} {ts : List Token}
    (hts : (c.session source).ahead.tokens = ts) (hdefinite : Definite ts)
    (h : parseProgram c source = .ok ss) : Spelled (ss.flatMap Stmt.yield) ts := by
  have hcases := parseProgram_cases c source
  rw [h, hts] at hcases
  exact hcases.2.yield hdefinite

/-- The two sources, with the significant tokens `ts` and `ts'`, are parsed alike.  They are either
both programs, of one outline and each with its own names and numbers in the order of its tokens,
or both have a fault of the same code and message about the token of the same index, or about
none. -/
def ParsedAlike (c c' : Config) (source source' : String) (ts ts' : List Token) : Prop :=
  (∃ ss ss', parseProgram c source = .ok ss ∧ parseProgram c' source' = .ok ss' ∧
    ss.map Stmt.outline = ss'.map Stmt.outline ∧
    Spelled (ss.flatMap Stmt.yield) ts ∧ Spelled (ss'.flatMap Stmt.yield) ts') ∨
  ∃ e e' : ParseError, parseProgram c source = .error (.grammatical e) ∧
    parseProgram c' source' = .error (.grammatical e') ∧ e.fault.code = e'.fault.code ∧
    e.fault.message = e'.fault.message ∧
    Option.Rel (Abreast ts ts') e.fault.token? e'.fault.token?

/-- Parsing depends on the skeletons of the tokens and on nothing else, up to undefined lengths.
Two sources of one skeleton, each with a number type of its own, are parsed alike, or both parses
come to the tokens of one index as lengths, neither of them a natural number and at least one of
them undefined.  There a parse whose length is undefined breaks down, and one whose length is not
has a fault. -/
theorem parseProgram_skeleton {c c' : Config} (hvalid : c.Valid) (hvalid' : c'.Valid)
    (hconvert : ∀ text, c.convert text ≠ .ok .nothing)
    (hconvert' : ∀ text, c'.convert text ≠ .ok .nothing) {source source' : String}
    {skips skips' : Bool} {ts ts' : List Token}
    (htokens : tokenize source c.filename c.convert skips = .ok ts)
    (htokens' : tokenize source' c'.filename c'.convert skips' = .ok ts')
    (hskeleton : (significant ts).map Token.skeleton = (significant ts').map Token.skeleton) :
    ParsedAlike c c' source source' (significant ts) (significant ts') ∨
    ∃ t t' v v', Abreast (significant ts) (significant ts') t t' ∧
      t.lexeme = .number v ∧ t'.lexeme = .number v' ∧ v.whole? = none ∧ v'.whole? = none ∧
      (v.isUndefined = true ∨ v'.isUndefined = true) ∧
      parseProgram c source = .error (lengthFailure c.filename v t) ∧
      parseProgram c' source' = .error (lengthFailure c'.filename v' t') := by
  obtain ⟨hfailure, hahead⟩ := ahead_of_tokenize htokens
  obtain ⟨hfailure', hahead'⟩ := ahead_of_tokenize htokens'
  have hdefinite : Definite (significant ts) := hahead ▸ Config.definite_session hconvert source
  have hdefinite' : Definite (significant ts') :=
    hahead' ▸ Config.definite_session hconvert' source'
  have hlike : Buffer.LikeAhead (.sameSkeleton (significant ts) (significant ts'))
      (c.session source) (c'.session source') :=
    { tokens := by
        show List.Forall₂ _ (Cursor.start source c.filename c.convert).ahead.tokens
          (Cursor.start source' c'.filename c'.convert).ahead.tokens
        rw [hahead, hahead']
        exact forall₂_sameSkeleton hdefinite hdefinite' hskeleton
      failure_left := hfailure
      failure_right := hfailure'
      capacity_left := hvalid
      capacity_right := hvalid' }
  rcases parseProgram_likeAhead hlike with
    ⟨ss, ss', hss, hss', hstmts⟩ | ⟨x, x', hx, hx', hfault⟩ | ⟨t, t', v, v', ht, hrun, hrun'⟩
  · refine .inl (.inl ⟨ss, ss', hss, hss',
      map_eq_map_of_forall₂ hstmts fun _ _ => Stmt.Like.outline_eq, ?_, ?_⟩)
    · exact spelled_of_parseProgram hahead hdefinite hss
    · exact spelled_of_parseProgram hahead' hdefinite' hss'
  · refine .inl (.inr ⟨_, _, hx, hx', hfault.code_eq, hfault.message_eq, ?_⟩)
    have htoken := hfault.token?
    generalize x.token? = r, x'.token? = r' at htoken ⊢
    cases htoken with
    | none => exact .none
    | some h => exact .some h.1
  · exact .inr ⟨t, t', v, v', ht.token.1, ht.left, ht.right, ht.whole_left, ht.whole_right,
      ht.undefined, hrun, hrun'⟩

/-- An assignment of a range and a function, in integers. -/
def terseSource : String := "f = [-1 .. 2] fn(x) x"

/-- A source of the same skeleton, in fractions. -/
def wordySource : String := "first // word\n= [0.5 .. 4.0]\nfn (item) third"

/-- Both are programs. -/
theorem parseProgram_skeleton_terse :
    ∃ ts ts' ss ss', tokenize terseSource anonymous NamedType.integer.converter true = .ok ts ∧
      tokenize wordySource "<stdin>" NamedType.fraction.converter true = .ok ts' ∧
      (significant ts).map Token.skeleton = (significant ts').map Token.skeleton ∧
      parseProgram ⟨NamedType.integer.converter, anonymous, 2⟩ terseSource = .ok ss ∧
      parseProgram ⟨NamedType.fraction.converter, "<stdin>", 8⟩ wordySource = .ok ss' ∧
      ss.map Stmt.outline = ss'.map Stmt.outline ∧
      Spelled (ss.flatMap Stmt.yield) (significant ts) ∧
      Spelled (ss'.flatMap Stmt.yield) (significant ts') := by
  have hscan : (tokenize terseSource anonymous NamedType.integer.converter true).toOption.map
        (fun ts => (significant ts).map Token.skeleton) =
      some [.name false, .particle .assign, .particle .leftBracket, .number false,
        .particle .range, .number true, .particle .rightBracket, .name true, .particle .leftParen,
        .name false, .particle .rightParen, .name false] := by decide +kernel
  have hscan' : (tokenize wordySource "<stdin>" NamedType.fraction.converter true).toOption.map
        (fun ts => (significant ts).map Token.skeleton) =
      (tokenize terseSource anonymous NamedType.integer.converter true).toOption.map
        (fun ts => (significant ts).map Token.skeleton) := by decide +kernel
  have hrun : (parseProgram ⟨NamedType.integer.converter, anonymous, 2⟩ terseSource).map
      List.length = .ok 2 := by decide +kernel
  cases hts : tokenize terseSource anonymous NamedType.integer.converter true with
  | error e =>
    rw [hts] at hscan
    cases hscan
  | ok ts =>
    rw [hts] at hscan'
    cases hts' : tokenize wordySource "<stdin>" NamedType.fraction.converter true with
    | error e =>
      rw [hts'] at hscan'
      cases hscan'
    | ok ts' =>
      rw [hts'] at hscan'
      have hskeleton := (Option.some.inj hscan').symm
      have hfar : Config.Valid ⟨NamedType.fraction.converter, "<stdin>", 8⟩ :=
        show minLookahead ≤ 8 by decide
      rcases parseProgram_skeleton (c := ⟨NamedType.integer.converter, anonymous, 2⟩)
          (Int.le_refl 2) hfar (NamedType.converter_ne_nothing .integer)
          (NamedType.converter_ne_nothing .fraction) hts hts' hskeleton with
        (⟨ss, ss', hss, hss', hrest⟩ | ⟨e, e', he, -⟩) | ⟨t, t', v, v', -, -, -, -, -, -, he, -⟩
      · exact ⟨ts, ts', ss, ss', rfl, rfl, hskeleton, hss, hss', hrest⟩
      · rw [he] at hrun
        cases hrun
      · rw [he] at hrun
        cases hrun

/-- Zero for itself, and an undefined decimal for every other numeral. -/
def Converter.zeroOrUndefined : Converter := fun s =>
  .ok (.decimal (if s = "0" then .finite false 0 0 else .nan false false 0))

/-- A length that is negative in one source and undefined in another one of the same skeleton: the
first has a fault, and the second breaks down. -/
theorem not_parsedAlike_undefined :
    ∃ ts ts', tokenize "[0..-1]" anonymous NamedType.integer.converter false = .ok ts ∧
      tokenize "[0..1]" anonymous .zeroOrUndefined false = .ok ts' ∧
      (significant ts).map Token.skeleton = (significant ts').map Token.skeleton ∧
      (∀ text, NamedType.integer.converter text ≠ .ok .nothing) ∧
      (∀ text, Converter.zeroOrUndefined text ≠ .ok .nothing) ∧
      parseProgram ⟨NamedType.integer.converter, anonymous, 2⟩ "[0..-1]" =
        .error (.grammatical ⟨.invalidRange "Range length must be a non-negative integer"
          ⟨.number (.integer (-1)), ⟨0, 4⟩, "-1"⟩, anonymous⟩) ∧
      parseProgram ⟨.zeroOrUndefined, anonymous, 2⟩ "[0..1]" =
        .error (.breakdown .undefinedOrder) ∧
      ¬ ParsedAlike ⟨NamedType.integer.converter, anonymous, 2⟩ ⟨.zeroOrUndefined, anonymous, 2⟩
        "[0..-1]" "[0..1]" (significant ts) (significant ts') := by
  have hrun : parseProgram ⟨.zeroOrUndefined, anonymous, 2⟩ "[0..1]" =
      .error (.breakdown .undefinedOrder) :=
    error_of_map (f := List.length) (by decide +kernel)
  have hskeleton :
      (tokenize "[0..-1]" anonymous NamedType.integer.converter false).toOption.map
        (fun ts => (significant ts).map Token.skeleton) =
      some [.particle .leftBracket, .number true, .particle .range, .number false,
        .particle .rightBracket] := by decide +kernel
  have hskeleton' :
      (tokenize "[0..1]" anonymous .zeroOrUndefined false).toOption.map
        (fun ts => (significant ts).map Token.skeleton) =
      some [.particle .leftBracket, .number true, .particle .range, .number false,
        .particle .rightBracket] := by decide +kernel
  cases hts : tokenize "[0..-1]" anonymous NamedType.integer.converter false with
  | error e =>
    rw [hts] at hskeleton
    cases hskeleton
  | ok ts =>
    cases hts' : tokenize "[0..1]" anonymous .zeroOrUndefined false with
    | error e =>
      rw [hts'] at hskeleton'
      cases hskeleton'
    | ok ts' =>
      rw [hts] at hskeleton
      rw [hts'] at hskeleton'
      have hsame := (Option.some.inj hskeleton).trans (Option.some.inj hskeleton').symm
      refine ⟨ts, ts', rfl, rfl, hsame, NamedType.converter_ne_nothing .integer, fun text h => ?_,
        error_of_map (f := List.length) (by decide +kernel), hrun, ?_⟩
      · cases h
      · rintro (⟨ss, ss', -, hss, -⟩ | ⟨e, e', -, he, -⟩)
        · rw [hrun] at hss
          cases hss
        · rw [hrun] at he
          cases he

end ExprFront
