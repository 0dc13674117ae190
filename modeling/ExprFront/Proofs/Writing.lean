import ExprFront.Proofs.Completeness
import Mathlib.Data.List.Chain

/-!
# Programs written out

A program can be written out, mark by mark with single spaces in between, and parsed again.
What comes back is the same program up to positions, provided that its trees are stratified
and that no statement goes on with the one before it.

* `Mark.WrittenAs` says which texts a mark can be written as.
* `Cursor.ahead_of_written` is the part of the scanner: the texts are scanned into tokens that
  bear out the marks.
* `exists_program` is the part of the grammar: tokens that bear out the marks of the statements
  are a program.

Main result: `parseProgram_written`.
-/

namespace ExprFront

/-- The text can be written for the mark. -/
inductive Mark.WrittenAs (convert : Converter) : Mark → String → Prop where
  | particle (p : Particle) : WrittenAs convert (.particle p) p.symbol
  | name {s : String} (hs : IsName s.toList) : WrittenAs convert (.name s) s
  /-- A numeral that is converted to the number. -/
  | number {v : Value} {text : String} (ht : IsNumeral text.toList) (hv : convert text = .ok v)
      (hne : v ≠ .nothing) : WrittenAs convert (.number v) text
  /-- A numeral that is converted to some number equal to the length. -/
  | length {n : Nat} {v : Value} {text : String} (ht : IsNumeral text.toList)
      (hv : convert text = .ok v) (hn : v.toRat? = some (n : Rat)) :
      WrittenAs convert (.length n) text

/-! ## Scanning what is written -/

/-- What a mark is written as is scanned as one token that bears out the mark. -/
theorem Mark.WrittenAs.take? {convert : Converter} {m : Mark} {text : String}
    (h : m.WrittenAs convert text) {after : List Char} (ha : Boundary after) :
    ∃ shape lexeme, Fragment.take? (text.toList ++ after) = some (shape, text.toList) ∧
      shape.lexeme convert text = .ok lexeme ∧ m.Matches lexeme ∧ lexeme ≠ .skip ∧
      lexeme ≠ .endOfInput ∧ lexeme ≠ .number .nothing := by
  cases h with
  | particle p =>
    exact ⟨.particle p, .particle p, Fragment.take?_symbol p ha, rfl, rfl, nofun, nofun, nofun⟩
  | name hs =>
    exact ⟨.word, .name text, Fragment.take?_name hs ha, rfl, rfl, nofun, nofun, nofun⟩
  | @number v _ ht hv hne =>
    refine ⟨.numeral, .number v, Fragment.take?_numeral ht ha, ?_, rfl, nofun, nofun, ?_⟩
    · rw [Shape.lexeme, hv]
      rfl
    · rintro ⟨⟩
      exact hne rfl
  | @length n v _ ht hv hn =>
    refine ⟨.numeral, .number v, Fragment.take?_numeral ht ha, ?_, hn, nofun, nofun, ?_⟩
    · rw [Shape.lexeme, hv]
      rfl
    · rintro ⟨⟩
      cases hn

namespace Cursor

/-- A fragment after a gap is taken by one step. -/
theorem next_of_take? {c : Cursor} {gap text after : List Char} {shape : Shape} {l : Lexeme}
    (h : c.rest = gap ++ (text ++ after)) (hgap : IsGap gap)
    (ht : Fragment.take? (text ++ after) = some (shape, text))
    (hl : shape.lexeme c.convert (String.ofList text) = .ok l) :
    ∃ t c', c.next = .ok (t, c') ∧ t.lexeme = l ∧ c'.rest = after ∧ c'.convert = c.convert :=
  ⟨_, _, next_eq_of_take? h hgap ht hl, rfl, rfl, rfl⟩

end Cursor

/-- Texts with single spaces in between begin with the first text, and a boundary follows. -/
theorem spaced_cons (text : List Char) (texts : List (List Char)) :
    ∃ gap, [' '].intercalate (text :: texts) = text ++ (gap ++ [' '].intercalate texts) ∧
      IsGap gap ∧ Boundary (gap ++ [' '].intercalate texts) := by
  cases texts with
  | nil =>
    refine ⟨[], ?_, isGap_nil, ?_⟩
    · simp
    · intro c hc
      cases hc
  | cons next texts =>
    refine ⟨[' '], ?_, ?_, ?_⟩
    · rw [List.intercalate_cons_cons, List.append_assoc]
    · intro c hc
      rw [List.mem_singleton.1 hc]
      rfl
    · intro c hc
      cases hc
      exact .inl rfl

/-- Written marks are scanned, without failure, into tokens that bear them out. -/
theorem Cursor.ahead_of_written {convert : Converter} {marks : List Mark} {texts : List String}
    (h : List.Forall₂ (Mark.WrittenAs convert) marks texts) :
    ∀ (c : Cursor) (gap : List Char), c.convert = convert → IsGap gap →
      c.rest = gap ++ [' '].intercalate (texts.map String.toList) →
      c.ahead.failure? = none ∧ Spelled marks c.ahead.tokens ∧ Definite c.ahead.tokens := by
  induction h with
  | nil =>
    intro c gap _ hgap hrest
    rw [List.map_nil, List.intercalate_nil, List.append_nil] at hrest
    have hahead : c.ahead = ⟨[], none⟩ :=
      (ahead_of_ok (next_of_isGap (hrest ▸ hgap))).trans (if_pos rfl)
    rw [hahead]
    exact ⟨rfl, .nil, fun t ht => absurd ht List.not_mem_nil⟩
  | @cons m text marks texts hm _ ih =>
    intro c gap hconvert hgap hrest
    obtain ⟨gap', hspaced, hgap', hboundary⟩ := spaced_cons text.toList (texts.map String.toList)
    obtain ⟨shape, l, ht, hl, hmatches, hskip, hend, hnothing⟩ := hm.take? hboundary
    rw [List.map_cons, hspaced] at hrest
    rw [← hconvert, ← String.ofList_toList (s := text)] at hl
    obtain ⟨t, c', hnext, rfl, hrest', hconvert'⟩ := next_of_take? hrest hgap ht hl
    obtain ⟨hfailure, hspelled, hdefinite⟩ := ih c' gap' (hconvert'.trans hconvert) hgap' hrest'
    have hnotEnd : ¬ t.isEnd = true := by simpa [Token.isEnd] using hend
    have hnotSkip : ¬ t.isSkip = true := by simpa [Token.isSkip] using hskip
    rw [ahead_of_ok hnext, if_neg hnotEnd, if_neg hnotSkip]
    refine ⟨hfailure, .cons hmatches hspelled, fun u hu => ?_⟩
    rcases List.mem_cons.1 hu with rfl | hu
    · exact hnothing
    · exact hdefinite u hu

/-! ## Statements in a row -/

/-- The second statement does not go on with the first one: it does not start with a minus
sign, nor with a parenthesis after the word that starts a function. -/
def Stmt.Precedes (s s' : Stmt) : Prop :=
  s'.yield.head? ≠ some (.particle .minus) ∧
    ¬ (s.yield.getLast? = some (.name Grammar.lambdaWord) ∧
      s'.yield.head? = some (.particle .leftParen))

theorem Mark.eq_of_matches {m : Mark} {l : Lexeme} (h : m.Matches l) (hl : ∀ v, l ≠ .number v) :
    m = .lexeme l := by
  cases m with
  | lexeme l' =>
    cases h
    rfl
  | length n =>
    obtain ⟨v, hv, -⟩ := exists_of_matches_length h
    exact absurd hv (hl v)

theorem Spelled.head?_eq {ms : List Mark} {ts : List Token} (h : Spelled ms ts) {p : Particle}
    (hp : Next p ts) : ms.head? = some (.particle p) := by
  cases h with
  | nil => exact absurd hp not_next_nil
  | cons hm _ =>
    rw [next_cons] at hp
    rw [hp] at hm
    rw [List.head?_cons, Mark.eq_of_matches hm (by simp)]

theorem Spelled.getLast?_eq {ms : List Mark} {ts : List Token} (h : Spelled ms ts) {s : String}
    (hs : LastName s ts) : ms.getLast? = some (.name s) := by
  have hreverse := List.forall₂_reverse_iff.2 h
  rw [LastName, ← List.head?_reverse] at hs
  rw [← List.head?_reverse]
  generalize ms.reverse = ns at hreverse ⊢
  generalize ts.reverse = us at hreverse hs
  cases hreverse with
  | nil => cases hs
  | cons hm _ =>
    rw [List.head?_cons, Option.map_some, Option.some_inj] at hs
    rw [hs] at hm
    rw [List.head?_cons, Mark.eq_of_matches hm (by simp)]

/-- An expression stops before tokens that can begin a statement, unless they begin with a
minus sign, or with a parenthesis after the word that starts a function. -/
theorem stops_of_starts {us vs : List Token} (hstarts : ∀ p, Next p vs → p ∈ openers)
    (hminus : ¬ Next .minus vs)
    (hlambda : ¬ (LastName Grammar.lambdaWord us ∧ Next .leftParen vs)) (e : Expr) :
    Stops 0 e us vs := by
  have hopeners : ∀ p ∈ openers, Tier.ofOperator? p ≠ none → p = .minus := by decide
  constructor
  · intro t _ op hop hnext
    have hsome : Tier.ofOperator? op ≠ none := by
      rw [Tier.ofOperator?_eq_some_iff.2 hop]
      nofun
    obtain rfl := hopeners op (hstarts op hnext) hsome
    exact hminus hnext
  · intro _ hnext
    exact absurd (hstarts _ hnext) (by decide)
  · intro _ _ hnext
    exact absurd (hstarts _ hnext) (by decide)
  · intro hlast hnext
    exact hlambda ⟨hlast, hnext⟩

/-- A statement stops before the next one, unless that goes on with it. -/
theorem stops_of_precedes {s next : Stmt} {ss : List Stmt} (hprecedes : s.Precedes next)
    {us vs : List Token} (hus : Spelled s.yield us)
    (hvs : Spelled ((next :: ss).flatMap Stmt.yield) vs) (hstarts : ∀ p, Next p vs → p ∈ openers)
    (e : Expr) : Stops 0 e us vs := by
  have hhead : ∀ p, Next p vs → next.yield.head? = some (.particle p) := by
    intro p hp
    have hfirst := hvs.head?_eq hp
    rwa [List.flatMap_cons, List.head?_append_of_ne_nil _ next.yield_ne_nil] at hfirst
  refine stops_of_starts hstarts (fun hnext => hprecedes.1 (hhead _ hnext)) ?_ e
  rintro ⟨hlast, hnext⟩
  exact hprecedes.2 ⟨hus.getLast?_eq hlast, hhead _ hnext⟩

theorem stops_nil (k : Nat) (e : Expr) (ts : List Token) : Stops k e ts [] :=
  ⟨fun _ _ _ _ => not_next_nil, fun _ => not_next_nil, fun _ _ => not_next_nil,
    fun _ => not_next_nil⟩

/-- Tokens with the lexemes of stratified statements, none of which goes on with the one
before it, are a program that differs from the statements in positions only. -/
theorem exists_program {ss : List Stmt} (hstrat : ∀ s ∈ ss, s.Stratified)
    (hchain : ss.IsChain Stmt.Precedes) {ts : List Token}
    (hts : Spelled (ss.flatMap Stmt.yield) ts) (hd : Definite ts) :
    ∃ ss', Program ss' ts ∧ ss'.map Stmt.unplaced = ss.map Stmt.unplaced := by
  induction ss generalizing ts with
  | nil =>
    cases hts
    exact ⟨[], .nil, rfl⟩
  | cons s ss ih =>
    obtain ⟨us, vs, rfl, hus, hvs⟩ := Spelled.of_append hts
    obtain ⟨hud, hvd⟩ := hd.of_append
    obtain ⟨s', hreads, hs', hse⟩ := (hstrat s (by simp)).exists_reads hus hud
    obtain ⟨ss', hprogram, hsse⟩ := ih (fun x hx => hstrat x (by simp [hx])) hchain.tail hvs hvd
    have hstops : Stops 0 s'.body us vs := by
      cases hchain with
      | singleton =>
        cases hvs
        exact stops_nil 0 s'.body us
      | cons_cons hprecedes _ => exact stops_of_precedes hprecedes hus hvs hprogram.starts s'.body
    refine ⟨s' :: ss', .cons ⟨hreads, hs', hstops⟩ hprogram, ?_⟩
    rw [List.map_cons, List.map_cons, hse, hsse]

/-! ## Parsing what is written -/

/-- Stratified statements, none of which goes on with the one before it, are parsed from what
they are written as, with single spaces in between.  Only positions are not kept. -/
theorem parseProgram_written {c : Config} (hvalid : c.Valid) {ss : List Stmt}
    {texts : List String} (hstrat : ∀ s ∈ ss, s.Stratified)
    (hchain : ss.IsChain Stmt.Precedes)
    (hwritten : List.Forall₂ (Mark.WrittenAs c.convert) (ss.flatMap Stmt.yield) texts) :
    ∃ ss', parseProgram c (" ".intercalate texts) = .ok ss' ∧
      ss'.map Stmt.unplaced = ss.map Stmt.unplaced := by
  have hsource : (" ".intercalate texts).toList = [' '].intercalate (texts.map String.toList) :=
    String.toList_intercalate
  obtain ⟨hfailure, hspelled, hdefinite⟩ := Cursor.ahead_of_written hwritten
    (.start (" ".intercalate texts) c.filename c.convert) [] rfl isGap_nil hsource
  obtain ⟨ss', hprogram, hsame⟩ := exists_program hstrat hchain hspelled hdefinite
  exact ⟨ss', parseProgram_of_program hvalid hfailure hprogram, hsame⟩

/-- A function whose body begins with a minus sign, then a range. -/
def sampleStatements : List Stmt :=
  [.assign "f" (.lambda ["x"] (.unary .minus (.name "x" .origin) .origin) .origin) .origin,
    .expression (.range (.integer 0) 3 (some (.integer 2)) .origin) .origin]

/-- The same statements, written out. -/
def sampleTexts : List String :=
  ["f", "=", "fn", "(", "x", ")", "-", "x", "[", "0", "..", "3", ";", "2", "]"]

theorem stratified_sampleStatements : ∀ s ∈ sampleStatements, s.Stratified := by
  intro s hs
  rcases List.mem_pair.1 hs with rfl | rfl
  · exact .lambda (.unary (by decide) (show Expr.unaryRank ≤ Expr.primaryRank by decide) (.name ..))
  · exact .range ..

theorem isName_singleton {c : Char} (hc : isNameStart c = true) : IsName [c] :=
  ⟨c, [], rfl, hc, nofun⟩

theorem isNumeral_singleton {d : Char} (hd : d.isDigit = true) : IsNumeral [d] :=
  ⟨[], [d], [], rfl, .inl rfl, ⟨nofun, by simpa using hd⟩, .inl rfl⟩

theorem written_sampleStatements :
    List.Forall₂ (Mark.WrittenAs .integer) (sampleStatements.flatMap Stmt.yield) sampleTexts := by
  have hmarks : sampleStatements.flatMap Stmt.yield =
      [.name "f", .particle .assign, .name "fn", .particle .leftParen, .name "x",
        .particle .rightParen, .particle .minus, .name "x", .particle .leftBracket,
        .number (.integer 0), .particle .range, .length 3, .particle .semicolon,
        .number (.integer 2), .particle .rightBracket] := rfl
  have hf : IsName "f".toList := isName_singleton (by decide)
  have hx : IsName "x".toList := isName_singleton (by decide)
  have hfn : IsName "fn".toList := by
    refine ⟨'f', ['n'], rfl, by decide, fun d hd => ?_⟩
    rw [List.mem_singleton.1 hd]
    decide
  rw [hmarks]
  exact .cons (.name hf) <| .cons (.particle .assign) <| .cons (.name hfn) <|
    .cons (.particle .leftParen) <| .cons (.name hx) <| .cons (.particle .rightParen) <|
    .cons (.particle .minus) <| .cons (.name hx) <| .cons (.particle .leftBracket) <|
    .cons (.number (isNumeral_singleton rfl) rfl nofun) <| .cons (.particle .range) <|
    .cons (.length (isNumeral_singleton rfl) rfl rfl) <| .cons (.particle .semicolon) <|
    .cons (.number (isNumeral_singleton rfl) rfl nofun) <| .cons (.particle .rightBracket) .nil

theorem parseProgram_written_sample :
    (∀ s ∈ sampleStatements, s.Stratified) ∧ sampleStatements.IsChain Stmt.Precedes ∧
      ∃ ss, parseProgram ⟨.integer, anonymous, 2⟩ (" ".intercalate sampleTexts) = .ok ss ∧
        ss.map Stmt.unplaced = sampleStatements.map Stmt.unplaced := by
  have hchain : sampleStatements.IsChain Stmt.Precedes := by
    refine .cons_cons ⟨?_, fun h => ?_⟩ (.singleton _)
    · simp [Stmt.yield, Expr.yield]
    · simp [Stmt.yield, Expr.yield] at h
  exact ⟨stratified_sampleStatements, hchain,
    parseProgram_written (c := ⟨.integer, anonymous, 2⟩) (Int.le_refl 2)
      stratified_sampleStatements hchain written_sampleStatements⟩

end ExprFront
