import ExprFront.Proofs.Likeness

/-!
# Layout between tokens

Between tokens stands layout: spaces, tabs, line breaks, and comments that run to the end of
their line.  This module shows that layout carries no meaning.  A source may be laid out
anew, with any layout after each of its tokens, and it is still the same program, or has
still the same fault, or still breaks down at a length that is an undefined decimal.

* `Token.Isolated` says that the text of a token is scanned as that token wherever a boundary
  follows it.  Every token that a cursor gives is isolated (`Cursor.isolated_of_ahead`), so
  no text is read differently once it stands alone.
* `IsLayout` and `Relaid` describe layout, and tokens laid out with it.
* `Cursor.ahead_of_layout` passes over layout, and `Cursor.ahead_of_relaid` scans tokens that
  are laid out.

That positions do not matter to the grammar is known from `parseProgram_likeAhead`.

Main result: `parseProgram_relaid`.
-/

namespace ExprFront

/-! ## Tokens that stand alone -/

theorem Particle.symbol_of_one? {c : Char} {p : Particle} (h : Particle.one? c = some p) :
    p.symbol.toList = [c] := by
  unfold Particle.one? at h
  split at h <;> cases h <;> rfl

theorem Particle.symbol_of_two? {c d : Char} {p : Particle} (h : Particle.two? c d = some p) :
    p.symbol.toList = [c, d] := by
  unfold Particle.two? at h
  split at h <;> cases h <;> rfl

namespace Fragment

/-- What is taken as a particle is its symbol. -/
theorem symbol_of_particle? {cs text : List Char} {p : Particle}
    (h : particle? cs = some (p, text)) : text = p.symbol.toList := by
  have single : ∀ {c : Char}, (Particle.one? c).map (·, [c]) = some (p, text) →
      text = p.symbol.toList := by
    intro c hc
    obtain ⟨q, hq, he⟩ := Option.map_eq_some_iff.1 hc
    cases he
    exact (Particle.symbol_of_one? hq).symm
  unfold particle? at h
  split at h
  · cases h
  · exact single h
  · split at h
    · next q hq =>
      cases h
      exact (Particle.symbol_of_two? hq).symm
    · exact single h

theorem shape_of_skipped? {cs text : List Char} {shape : Shape}
    (h : skipped? cs = some (shape, text)) : shape = .lineBreak ∨ shape = .comment := by
  unfold skipped? at h
  split at h
  · cases h
    exact .inl rfl
  · cases h
    exact .inr rfl
  · cases h

/-- A fragment that is not skipped is taken again wherever a boundary follows it. -/
theorem take?_of_boundary {cs text after : List Char} {shape : Shape}
    (h : take? cs = some (shape, text)) (hbreak : shape ≠ .lineBreak) (hcomment : shape ≠ .comment)
    (ha : Boundary after) : take? (text ++ after) = some (shape, text) := by
  unfold take? at h
  split at h
  · next found hs =>
    cases h
    rcases shape_of_skipped? hs with he | he
    · exact absurd he hbreak
    · exact absurd he hcomment
  · split at h
    · next hn =>
      cases h
      exact take?_numeral (isNumeral_numeral (by simpa using hn)) ha
    · split at h
      · next hw =>
        cases h
        exact take?_name (isName_word (by simpa using hw)) ha
      · obtain ⟨⟨p, t⟩, hp, he⟩ := Option.map_eq_some_iff.1 h
        cases he
        rw [symbol_of_particle? hp]
        exact take?_symbol p ha

end Fragment

/-- The text of the token is scanned as the token wherever a boundary follows it. -/
structure Token.Isolated (convert : Converter) (t : Token) : Prop where
  notSkip : t.isSkip = false
  notEnd : t.isEnd = false
  taken : ∃ shape : Shape, shape.lexeme convert t.text = .ok t.lexeme ∧
    ∀ after, Boundary after → Fragment.take? (t.text.toList ++ after) = some (shape, t.text.toList)

namespace Cursor

theorem isolated_of_next {c c' : Cursor} {t : Token} (h : c.next = .ok (t, c'))
    (hskip : t.isSkip = false) (hend : t.isEnd = false) : t.Isolated c.convert := by
  rcases next_cases h with ⟨rfl, -, -⟩ | ⟨gap, text, after, shape, l, -, -, ht, hl, rfl, -⟩
  · cases hend
  · refine ⟨hskip, hend, shape, hl, fun after ha => ?_⟩
    have hbreak : shape ≠ .lineBreak := by
      rintro rfl
      cases hl
      cases hskip
    have hcomment : shape ≠ .comment := by
      rintro rfl
      cases hl
      cases hskip
    rw [String.toList_ofList]
    exact Fragment.take?_of_boundary ht hbreak hcomment ha

/-- Every token that a cursor gives can stand alone. -/
theorem isolated_of_ahead (c : Cursor) : ∀ t ∈ c.ahead.tokens, t.Isolated c.convert := by
  fun_induction ahead c with
  | case1 c e h => simp
  | case2 c t c' h he => simp
  | case3 c t c' h he hs ih =>
    rw [← convert_next h]
    exact ih
  | case4 c t c' h he hs ih =>
    intro u hu
    rcases List.mem_cons.1 hu with rfl | hu
    · exact isolated_of_next h (by simpa using hs) (by simpa using he)
    · rw [← convert_next h]
      exact ih u hu

end Cursor

/-! ## Layout -/

/-- Spaces, tabs, line breaks, and comments with the line break that ends them. -/
inductive IsLayout : List Char → Prop where
  | nil : IsLayout []
  | blank {c : Char} {cs : List Char} (hc : isGap c = true ∨ c = '\n') (tail : IsLayout cs) :
      IsLayout (c :: cs)
  | comment {body cs : List Char} (hbody : '\n' ∉ body) (tail : IsLayout cs) :
      IsLayout ('/' :: '/' :: (body ++ '\n' :: cs))

/-- Layout that starts with a space, a tab or a line break. -/
def IsSeparator (cs : List Char) : Prop :=
  ∃ c layout, cs = c :: layout ∧ (isGap c = true ∨ c = '\n') ∧ IsLayout layout

/-- The text is the texts of the tokens in order, each followed by a separator.  More layout
may follow the last one. -/
inductive Relaid : List Token → List Char → Prop where
  | finish {layout : List Char} (hlayout : IsLayout layout) : Relaid [] layout
  | token {t : Token} {ts : List Token} {separator code : List Char}
      (hseparator : IsSeparator separator) (tail : Relaid ts code) :
      Relaid (t :: ts) (t.text.toList ++ (separator ++ code))

theorem IsSeparator.layout {separator : List Char} (h : IsSeparator separator) :
    IsLayout separator := by
  obtain ⟨c, layout, rfl, hc, hlayout⟩ := h
  exact .blank hc hlayout

/-- A token may stand before a separator. -/
theorem IsSeparator.boundary_append {separator : List Char} (h : IsSeparator separator)
    (code : List Char) : Boundary (separator ++ code) := by
  obtain ⟨c, layout, rfl, hc, -⟩ := h
  intro d hd
  cases hd
  exact hc

theorem Fragment.take?_newline (cs : List Char) :
    take? (['\n'] ++ cs) = some (.lineBreak, ['\n']) := rfl

/-- A comment is taken up to the end of its line. -/
theorem Fragment.take?_comment {body : List Char} (hbody : '\n' ∉ body) (cs : List Char) :
    take? ('/' :: '/' :: (body ++ '\n' :: cs)) = some (.comment, '/' :: '/' :: body) := by
  have hall : ∀ c ∈ body, decide (c ≠ '\n') = true := by
    intro c hc
    rw [decide_eq_true_eq]
    rintro rfl
    exact hbody hc
  have hstop : ('\n' :: cs).takeWhile (· ≠ '\n') = [] := List.takeWhile_cons_of_neg (by simp)
  have hline : (body ++ '\n' :: cs).takeWhile (· ≠ '\n') = body := by
    rw [List.takeWhile_append_of_pos hall, hstop, List.append_nil]
  rw [take?, skipped?, hline]

/-- Tokens with one lexeme and one text. -/
def Token.Same (t t' : Token) : Prop := t.lexeme = t'.lexeme ∧ t.text = t'.text

theorem Token.Same.isEnd_eq {t t' : Token} (h : t.Same t') : t.isEnd = t'.isEnd := by
  rw [isEnd, isEnd, h.1]

theorem Token.Same.isSkip_eq {t t' : Token} (h : t.Same t') : t.isSkip = t'.isSkip := by
  rw [isSkip, isSkip, h.1]

namespace Cursor

/-- A skipped fragment after a gap is passed over. -/
theorem ahead_of_skipped {c : Cursor} {gap text after : List Char} {shape : Shape}
    (h : c.rest = gap ++ (text ++ after)) (hgap : IsGap gap)
    (ht : Fragment.take? (text ++ after) = some (shape, text))
    (hl : shape.lexeme c.convert (String.ofList text) = .ok .skip) :
    ∃ c' : Cursor, c'.rest = after ∧ c'.convert = c.convert ∧ c.ahead = c'.ahead := by
  have hnext := next_eq_of_take? h hgap ht hl
  refine ⟨_, ?_, ?_, (ahead_of_ok hnext).trans ((if_neg nofun).trans (if_pos rfl))⟩
  · rfl
  · rfl

/-- Layout is passed over, up to the blanks that stand before the next token. -/
theorem ahead_of_layout {layout : List Char} (hlayout : IsLayout layout) :
    ∀ {c : Cursor} {gap code : List Char}, IsGap gap → c.rest = gap ++ (layout ++ code) →
      ∃ (c' : Cursor) (gap' : List Char), IsGap gap' ∧ c'.rest = gap' ++ code ∧
        c'.convert = c.convert ∧ c.ahead = c'.ahead := by
  induction hlayout with
  | nil =>
    intro c gap code hgap hrest
    exact ⟨c, gap, hgap, hrest, rfl, rfl⟩
  | @blank x cs hx _ ih =>
    intro c gap code hgap hrest
    rcases hx with hx | rfl
    · -- A blank joins the gap before it; the cursor stays where it is.
      have hgap' : IsGap (gap ++ [x]) := by
        intro y hy
        rcases List.mem_append.1 hy with hy | hy
        · exact hgap y hy
        · rwa [List.mem_singleton.1 hy]
      exact ih hgap' (by rw [hrest, List.append_assoc]; rfl)
    · have hline : c.rest = gap ++ (['\n'] ++ (cs ++ code)) := hrest
      obtain ⟨c₁, hrest₁, hconvert₁, hahead₁⟩ :=
        ahead_of_skipped hline hgap (Fragment.take?_newline _) rfl
      obtain ⟨c₂, gap₂, hgap₂, hrest₂, hconvert₂, hahead₂⟩ := ih isGap_nil hrest₁
      exact ⟨c₂, gap₂, hgap₂, hrest₂, hconvert₂.trans hconvert₁, hahead₁.trans hahead₂⟩
  | @comment body cs hbody _ ih =>
    intro c gap code hgap hrest
    have hrest' : c.rest = gap ++ ('/' :: '/' :: body ++ '\n' :: (cs ++ code)) := by
      rw [hrest]
      simp
    obtain ⟨c₁, hrest₁, hconvert₁, hahead₁⟩ :=
      ahead_of_skipped hrest' hgap (Fragment.take?_comment hbody _) rfl
    have hline : c₁.rest = [] ++ (['\n'] ++ (cs ++ code)) := hrest₁
    obtain ⟨c₂, hrest₂, hconvert₂, hahead₂⟩ :=
      ahead_of_skipped hline isGap_nil (Fragment.take?_newline _) rfl
    obtain ⟨c₃, gap₃, hgap₃, hrest₃, hconvert₃, hahead₃⟩ := ih isGap_nil hrest₂
    exact ⟨c₃, gap₃, hgap₃, hrest₃, hconvert₃.trans (hconvert₂.trans hconvert₁),
      hahead₁.trans (hahead₂.trans hahead₃)⟩

/-- Tokens that can stand alone are scanned, without failure, from any text that they are
laid out in. -/
theorem ahead_of_relaid {ts : List Token} {code : List Char} (h : Relaid ts code) :
    ∀ {c : Cursor} {gap : List Char}, (∀ t ∈ ts, t.Isolated c.convert) → IsGap gap →
      c.rest = gap ++ code →
      c.ahead.failure? = none ∧ List.Forall₂ Token.Same ts c.ahead.tokens := by
  induction h with
  | @finish layout hlayout =>
    intro c gap _ hgap hrest
    rw [← List.append_nil layout] at hrest
    obtain ⟨c', gap', hgap', hrest', -, hahead⟩ := ahead_of_layout hlayout hgap hrest
    have hend : c'.ahead = ⟨[], none⟩ := by
      rw [List.append_nil] at hrest'
      exact (ahead_of_ok (next_of_isGap (hrest' ▸ hgap'))).trans (if_pos rfl)
    rw [hahead, hend]
    exact ⟨rfl, .nil⟩
  | @token t ts separator code hseparator _ ih =>
    intro c gap hisolated hgap hrest
    have ht := hisolated t (by simp)
    obtain ⟨shape, hl, htake⟩ := ht.taken
    rw [← String.ofList_toList (s := t.text)] at hl
    obtain ⟨u, c₁, hnext, hsame, hrest₁, hconvert₁⟩ : ∃ (u : Token) (c₁ : Cursor),
        c.next = .ok (u, c₁) ∧ t.Same u ∧ c₁.rest = [] ++ (separator ++ code) ∧
        c₁.convert = c.convert :=
      ⟨_, _, next_eq_of_take? hrest hgap (htake _ (hseparator.boundary_append code)) hl,
        ⟨rfl, String.ofList_toList.symm⟩, rfl, rfl⟩
    obtain ⟨c₂, gap₂, hgap₂, hrest₂, hconvert₂, hahead₂⟩ :=
      ahead_of_layout hseparator.layout isGap_nil hrest₁
    have hconvert := hconvert₂.trans hconvert₁
    have htail := ih (fun v hv => hconvert ▸ hisolated v (by simp [hv])) hgap₂ hrest₂
    have hnotEnd : ¬ u.isEnd = true := by simp [← hsame.isEnd_eq, ht.notEnd]
    have hnotSkip : ¬ u.isSkip = true := by simp [← hsame.isSkip_eq, ht.notSkip]
    rw [ahead_of_ok hnext, if_neg hnotEnd, if_neg hnotSkip, hahead₂]
    exact ⟨htail.1, .cons hsame htail.2⟩

end Cursor

/-! ## Sources laid out anew -/

/-- Elements that correspond stand at the same index. -/
theorem forall₂_index {α β : Type} {R : α → β → Prop} {xs : List α} {ys : List β}
    (h : List.Forall₂ R xs ys) :
    List.Forall₂ (fun x y => R x y ∧ ∃ k : Nat, xs[k]? = some x ∧ ys[k]? = some y) xs ys := by
  obtain ⟨hlength, hget⟩ := List.forall₂_iff_get.1 h
  refine List.forall₂_iff_get.2 ⟨hlength, fun k hx hy => ⟨hget k hx hy, k, ?_, ?_⟩⟩
  · exact List.getElem?_eq_getElem hx
  · exact List.getElem?_eq_getElem hy

/-- The two tokens have one lexeme and one text, and they stand at the same index of the two
lists. -/
def SameAt (ts ts' : List Token) (t t' : Token) : Prop :=
  t.Same t' ∧ ∃ k : Nat, ts[k]? = some t ∧ ts'[k]? = some t'

/-- Layout carries no meaning.  A source whose tokens are laid out anew has tokens of the same
lexemes and texts.  Either it is the same program up to positions, or it has the same fault,
with the same message and advice, about the token of the same index, or both break down at an
undefined decimal of the same index. -/
theorem parseProgram_relaid {c : Config} (hvalid : c.Valid) {source code : String}
    {ts : List Token} (htokens : tokenize source c.filename c.convert false = .ok ts)
    (hcode : Relaid (significant ts) code.toList) :
    ∃ ts', tokenize code c.filename c.convert false = .ok ts' ∧
      List.Forall₂ Token.Same (significant ts) (significant ts') ∧
      ((∃ ss ss', parseProgram c source = .ok ss ∧ parseProgram c code = .ok ss' ∧
          ss.map Stmt.unplaced = ss'.map Stmt.unplaced) ∨
        (∃ e e' : ParseError, parseProgram c source = .error (.grammatical e) ∧
          parseProgram c code = .error (.grammatical e') ∧ e.fault.code = e'.fault.code ∧
          e.fault.message = e'.fault.message ∧ e.fault.help? = e'.fault.help? ∧
          Option.Rel (SameAt (significant ts) (significant ts')) e.fault.token?
            e'.fault.token?) ∨
        ∃ t t' v, parseProgram c source = .error (.breakdown .undefinedOrder) ∧
          parseProgram c code = .error (.breakdown .undefinedOrder) ∧
          SameAt (significant ts) (significant ts') t t' ∧ t.lexeme = .number v ∧
          v.isUndefined = true) := by
  obtain ⟨hfailure, hahead⟩ := ahead_of_tokenize htokens
  have hisolated : ∀ t ∈ significant ts, t.Isolated c.convert := by
    rw [← hahead]
    exact (Cursor.start source c.filename c.convert).isolated_of_ahead
  obtain ⟨hfailure', hsame⟩ := Cursor.ahead_of_relaid hcode
    (c := .start code c.filename c.convert) hisolated isGap_nil rfl
  obtain ⟨ts', hts', hahead'⟩ := tokenize_of_ahead hfailure' false
  rw [← hahead'] at hsame
  refine ⟨ts', hts', hsame, ?_⟩
  let L : Likeness := .placed (SameAt (significant ts) (significant ts')) (fun _ _ => True)
    (fun h => h.1.1) (fun _ => trivial)
  have hlike : Buffer.LikeAhead L (c.session source) (c.session code) :=
    { tokens := by
        show List.Forall₂ (SameAt _ _) (Cursor.start source c.filename c.convert).ahead.tokens
          (Cursor.start code c.filename c.convert).ahead.tokens
        rw [hahead, ← hahead']
        exact forall₂_index hsame
      failure_left := hfailure
      failure_right := hfailure'
      capacity_left := hvalid
      capacity_right := hvalid }
  rcases parseProgram_likeAhead hlike with
    ⟨ss, ss', hss, hss', hstmts⟩ | ⟨x, x', hx, hx', hfault⟩ | ⟨t, t', v, v', ht, hrun, hrun'⟩
  · refine .inl ⟨ss, ss', hss, hss', map_eq_map_of_forall₂ hstmts fun s s' hs => ?_⟩
    exact hs.mapPos_eq fun _ _ _ => rfl
  · exact .inr (.inl ⟨⟨x, c.filename⟩, ⟨x', c.filename⟩, hx, hx', hfault.code_eq,
      hfault.message_eq, hfault.help?_eq fun _ _ (h : SameAt _ _ _ _) => h.1.2, hfault.token?⟩)
  · have hat : SameAt (significant ts) (significant ts') t t' := ht.token
    have hlexeme : t.lexeme = t'.lexeme := hat.1.1
    rw [ht.left, ht.right] at hlexeme
    cases hlexeme
    have hundefined := ht.undefined.elim id id
    rw [Grammar.lengthFailure, if_pos hundefined] at hrun hrun'
    exact .inr (.inr ⟨t, t', v, hrun, hrun', hat, ht.left, hundefined⟩)

/-- A call whose second argument is followed by a range sign. -/
def crampedCall : String := "f\x7b-1,2..3"

/-- The tokens of the call. -/
def crampedTokens : List Token :=
  [⟨.name "f", ⟨0, 0⟩, "f"⟩, ⟨.particle .leftBrace, ⟨0, 1⟩, "\x7b"⟩,
    ⟨.number (.integer (-1)), ⟨0, 2⟩, "-1"⟩, ⟨.particle .comma, ⟨0, 4⟩, ","⟩,
    ⟨.number (.integer 2), ⟨0, 5⟩, "2"⟩, ⟨.particle .range, ⟨0, 6⟩, ".."⟩,
    ⟨.number (.integer 3), ⟨0, 8⟩, "3"⟩, ⟨.endOfInput, ⟨0, 9⟩, ""⟩]

/-- The same call over several lines, with comments. -/
def spaciousCall : String := "f // call\n\x7b -1\t,\n2 .. // range\n 3\n"

theorem relaid_spaciousCall : Relaid (significant crampedTokens) spaciousCall.toList := by
  have hspace : IsSeparator [' '] := ⟨' ', [], rfl, .inl rfl, .nil⟩
  have htab : IsSeparator ['\t'] := ⟨'\t', [], rfl, .inl rfl, .nil⟩
  have hbreak : IsSeparator ['\n'] := ⟨'\n', [], rfl, .inr rfl, .nil⟩
  have hcall : IsSeparator " // call\n".toList :=
    ⟨' ', _, rfl, .inl rfl, @IsLayout.comment " call".toList _ (by decide) .nil⟩
  have hrange : IsSeparator " // range\n ".toList :=
    ⟨' ', _, rfl, .inl rfl, @IsLayout.comment " range".toList _ (by decide)
      (.blank (.inl rfl) .nil)⟩
  exact .token hcall <| .token hspace <| .token htab <| .token hbreak <| .token hspace <|
    .token hrange <| .token hbreak <| .finish .nil

/-- Both calls lack a comma before the range sign. -/
theorem parseProgram_relaid_call :
    tokenize crampedCall anonymous .integer false = .ok crampedTokens ∧
    ∃ ts', tokenize spaciousCall anonymous .integer false = .ok ts' ∧
      List.Forall₂ Token.Same (significant crampedTokens) (significant ts') ∧
      ∃ e e' : ParseError,
        parseProgram ⟨.integer, anonymous, 2⟩ crampedCall = .error (.grammatical e) ∧
        parseProgram ⟨.integer, anonymous, 2⟩ spaciousCall = .error (.grammatical e') ∧
        e.fault.code = .P001 ∧ e.fault.code = e'.fault.code ∧
        e.fault.message = e'.fault.message ∧ e.fault.help? = e'.fault.help? ∧
        Option.Rel (SameAt (significant crampedTokens) (significant ts')) e.fault.token?
          e'.fault.token? := by
  have htokens : tokenize crampedCall anonymous .integer false = .ok crampedTokens := by
    decide +kernel
  have hrun : (parseProgram ⟨.integer, anonymous, 2⟩ crampedCall).map List.length =
      .error (.grammatical
        ⟨.unexpectedToken "a comma" ⟨.particle .range, ⟨0, 6⟩, ".."⟩, anonymous⟩) := by
    decide +kernel
  refine ⟨htokens, ?_⟩
  obtain ⟨ts', hts', hsame, hcases⟩ := parseProgram_relaid (c := ⟨.integer, anonymous, 2⟩)
    (Int.le_refl 2) htokens relaid_spaciousCall
  refine ⟨ts', hts', hsame, ?_⟩
  rcases hcases with ⟨ss, ss', hss, -⟩ | ⟨e, e', he, he', hrest⟩ | ⟨t, t', v, hbreak, -⟩
  · rw [hss] at hrun
    cases hrun
  · refine ⟨e, e', he, he', ?_, hrest⟩
    rw [he] at hrun
    cases hrun
    rfl
  · rw [hbreak] at hrun
    cases hrun

end ExprFront
