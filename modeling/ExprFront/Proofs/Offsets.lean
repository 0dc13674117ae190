import ExprFront.Lexer
import ExprFront.Proofs.Coordinates
import ExprFront.Proofs.ReadPoint

/-!
# A lexer at an offset scans the rest of its source

A lexer matches at an offset into its whole source.  The scanner without a state, `scanToken`, is
given a text and cuts off what it has read.  This module shows that the two agree whatever the
lexer is asked, and that the cursor which the grammar reads from is such a lexer.

* `Spot` is a place in a source, and `Spot.scan` cuts the source off there and scans what is left,
  with no lexer.
* `Spot.Scans` is scanning again and again.  `Spot.Does` says by such scans alone what each step
  answers and where it ends, and `Spot.Run` what a sequence of steps does.  Both leave no choice
  (`Spot.Run.unique`).
* A cursor keeps what lies behind it apart from what lies ahead, and moves characters from one to
  the other.  `Cursor.lexer` puts the two together again: one scan (`Cursor.next_lexer`), scanning
  to the end (`Cursor.tokens_lexer`) and any run of steps (`Cursor.runSteps_lexer`) are those of
  the lexer.
* `Cursor.map_next` compares one scan with the scan at a place, `Cursor.scans_of_tokens` scanning to
  the end, and `Cursor.does_step` any step.

All of this rests on `scanAt_eq`, by which matching at an offset and matching at the front of the
rest find the same.  The pure scans do not know the name of the source, so failures are compared up
to it (`Failure.labelled`).

Main results: `Lexer.runSteps_spot`, `Cursor.runSteps_lexer`.
-/

namespace ExprFront

/-- The failure with the name of the source in it, if it comes from scanning. -/
def Failure.labelled (filename : String) : Failure → Failure
  | .lexical e => .lexical { e with filename := filename }
  | f => f

/-- The name of the source shows in failures only. -/
theorem scan_labelled (convert : Converter) (filename : String) (code : List Char)
    (pos : Position) :
    scan convert filename code pos =
      (scan convert anonymous code pos).mapError (Failure.labelled filename) := by
  unfold scan
  simp only
  split
  · rfl
  · split
    · rfl
    · split
      · next e _ =>
        rw [Except.mapError]
        congr 1
        unfold numeralFailure
        cases e.kind <;> rfl
      · rfl

/-! ## Places in a source -/

theorem toList_extract_drop (source : Array Char) (i : Nat) :
    (source.extract i).toList = source.toList.drop i := by
  rw [Array.toList_extract, List.extract_eq_take_drop]
  exact List.take_of_length_le (by simp)

/-- The scanner without a state, from the scanner of lists. -/
theorem scanToken_eq (convert : Converter) (code : Array Char) (pos : Position) :
    scanToken convert code pos = (scan convert anonymous code.toList pos).map
      fun s => (s.token, code.extract s.width, s.next) := by
  rw [scanToken, scanAt_eq, List.drop_zero]
  cases scan convert anonymous code.toList pos with
  | error f => rfl
  | ok s => simp only [Except.map, Scan.shifted, Nat.zero_add]

/-- A source, an offset into it, and the position there. -/
structure Spot where
  source : Array Char
  offset : Nat
  pos : Position

namespace Spot

/-- The text from the offset on. -/
def rest (m : Spot) : Array Char := m.source.extract m.offset

/-- The token at the front of the text from the offset on, and the place where what is left of
that text begins. -/
def scan (convert : Converter) (m : Spot) : Except Failure (Token × Spot) :=
  match scanToken convert m.rest m.pos with
  | .error f => .error f
  | .ok (t, left, pos) =>
    .ok (t, { m with offset := m.offset + (m.rest.size - left.size), pos := pos })

variable {convert : Converter} {m m' : Spot}

/-- `Scans convert m ts m'`: scans one after the other lead from `m` to `m'` and give the tokens
`ts`, none of which is the end of input. -/
inductive Scans (convert : Converter) : Spot → List Token → Spot → Prop where
  | nil (m : Spot) : Scans convert m [] m
  | cons {m m₁ m' : Spot} {t : Token} {ts : List Token} (h : m.scan convert = .ok (t, m₁))
      (hend : t.isEnd = false) (tail : Scans convert m₁ ts m') : Scans convert m (t :: ts) m'

/-- The tokens that are listed, the skipped ones on demand. -/
def listed (includeSkips : Bool) (ts : List Token) : List Token :=
  if includeSkips then ts else ts.filter fun t => !t.isSkip

theorem listed_cons (includeSkips : Bool) (t : Token) (ts : List Token) :
    listed includeSkips (t :: ts) =
      if t.isSkip && !includeSkips then listed includeSkips ts
      else t :: listed includeSkips ts := by
  cases includeSkips <;> cases h : t.isSkip <;> simp [listed, h]

/-- `Does convert m i a m'`: the step `i` on the place `m` answers `a` and ends at `m'`. -/
inductive Does (convert : Converter) :
    Spot → Cursor.Step → Except Failure Cursor.Answer → Spot → Prop where
  | scan {m m' : Spot} {t : Token} (h : m.scan convert = .ok (t, m')) :
      Does convert m .scan (.ok (.token t)) m'
  | refused {m : Spot} {f : Failure} (h : m.scan convert = .error f) :
      Does convert m .scan (.error f) m
  | tokenize {m m₁ m' : Spot} {t : Token} {ts : List Token} (includeSkips : Bool)
      (hts : Scans convert m ts m₁) (h : m₁.scan convert = .ok (t, m')) (hend : t.isEnd = true) :
      Does convert m (.tokenize includeSkips) (.ok (.tokens (listed includeSkips (ts ++ [t])))) m'
  | stopped {m m₁ : Spot} {ts : List Token} {f : Failure} (includeSkips : Bool)
      (hts : Scans convert m ts m₁) (h : m₁.scan convert = .error f) :
      Does convert m (.tokenize includeSkips) (.error f) m₁
  | append (m : Spot) (text : String) :
      Does convert m (.append text) (.ok .done)
        { m with source := m.source ++ text.toList.toArray }

/-- The answers of a sequence of steps and the places that they end at. -/
inductive Run (convert : Converter) :
    Spot → List Cursor.Step → List (Except Failure Cursor.Answer × Spot) → Prop where
  | nil (m : Spot) : Run convert m [] []
  | cons {m m' : Spot} {i : Cursor.Step} {is : List Cursor.Step}
      {a : Except Failure Cursor.Answer} {rs : List (Except Failure Cursor.Answer × Spot)}
      (h : Does convert m i a m') (tail : Run convert m' is rs) :
      Run convert m (i :: is) ((a, m') :: rs)

/-- Scans that go on as long as they can, and then end with a failure or the end of input, leave
no choice. -/
theorem Scans.unique {m m₁ m₂ : Spot} {ts us : List Token} (h₁ : Scans convert m ts m₁)
    (h₂ : Scans convert m us m₂)
    (hstop₁ : ∀ t m', m₁.scan convert = .ok (t, m') → t.isEnd = true)
    (hstop₂ : ∀ t m', m₂.scan convert = .ok (t, m') → t.isEnd = true) : ts = us ∧ m₁ = m₂ := by
  induction h₁ generalizing us with
  | nil m =>
    cases h₂ with
    | nil => exact ⟨rfl, rfl⟩
    | cons h hend _ =>
      rw [hstop₁ _ _ h] at hend
      cases hend
  | cons h hend _ ih =>
    cases h₂ with
    | nil =>
      rw [hstop₂ _ _ h] at hend
      cases hend
    | cons h' hend' tail' =>
      cases h.symm.trans h'
      obtain ⟨rfl, rfl⟩ := ih tail' hstop₁
      exact ⟨rfl, rfl⟩

/-- A step leaves no choice. -/
theorem Does.unique {i : Cursor.Step} {a a' : Except Failure Cursor.Answer} {m₁ m₂ : Spot}
    (h : Does convert m i a m₁) (h' : Does convert m i a' m₂) : a = a' ∧ m₁ = m₂ := by
  have hfinal : ∀ {n n' : Spot} {t : Token}, n.scan convert = .ok (t, n') → t.isEnd = true →
      ∀ u k, n.scan convert = .ok (u, k) → u.isEnd = true := by
    intro n n' t hn ht u k hu
    cases hn.symm.trans hu
    exact ht
  have hfailed : ∀ {n : Spot} {f : Failure}, n.scan convert = .error f →
      ∀ (u : Token) (k : Spot), n.scan convert = .ok (u, k) → u.isEnd = true := by
    intro n f hn u k hu
    cases hn.symm.trans hu
  cases h with
  | scan h =>
    cases h' with
    | scan h' =>
      cases h.symm.trans h'
      exact ⟨rfl, rfl⟩
    | refused h' => cases h.symm.trans h'
  | refused h =>
    cases h' with
    | scan h' => cases h.symm.trans h'
    | refused h' =>
      cases h.symm.trans h'
      exact ⟨rfl, rfl⟩
  | tokenize b hts h hend =>
    cases h' with
    | tokenize _ hts' h' hend' =>
      obtain ⟨rfl, rfl⟩ := hts.unique hts' (hfinal h hend) (hfinal h' hend')
      cases h.symm.trans h'
      exact ⟨rfl, rfl⟩
    | stopped _ hts' h' =>
      obtain ⟨rfl, rfl⟩ := hts.unique hts' (hfinal h hend) (hfailed h')
      cases h.symm.trans h'
  | stopped b hts h =>
    cases h' with
    | tokenize _ hts' h' hend' =>
      obtain ⟨rfl, rfl⟩ := hts.unique hts' (hfailed h) (hfinal h' hend')
      cases h.symm.trans h'
    | stopped _ hts' h' =>
      obtain ⟨rfl, rfl⟩ := hts.unique hts' (hfailed h) (hfailed h')
      cases h.symm.trans h'
      exact ⟨rfl, rfl⟩
  | append text =>
    cases h'
    exact ⟨rfl, rfl⟩

/-- A sequence of steps leaves no choice. -/
theorem Run.unique {is : List Cursor.Step} {rs rs' : List (Except Failure Cursor.Answer × Spot)}
    (h : Run convert m is rs) (h' : Run convert m is rs') : rs = rs' := by
  induction h generalizing rs' with
  | nil m =>
    cases h'
    rfl
  | cons h _ ih =>
    cases h' with
    | cons h' tail' =>
      obtain ⟨rfl, rfl⟩ := h.unique h'
      rw [ih tail']

end Spot

/-! ## Cursors as lexers -/

/-- The outcome with its state seen through `f`. -/
def Outcome.mapState {σ τ α : Type} (f : σ → τ) : Outcome σ α → Outcome τ α
  | .ok a s => .ok a (f s)
  | .error e s => .error e (f s)

namespace Lexer

variable {l l' : Lexer} {includeSkips : Bool}

/-- The text from the offset on. -/
def rest (l : Lexer) : Array Char := l.source.extract l.offset

/-- The place of a lexer. -/
def spot (l : Lexer) : Spot := ⟨l.source, l.offset, l.pos⟩

/-- The next token, from the scanner of lists. -/
theorem next_eq (l : Lexer) :
    l.next = (scan l.convert l.filename (l.source.toList.drop l.offset) l.pos).map
      fun s => (s.token, { l with offset := l.offset + s.width, pos := s.next }) := by
  rw [next, scanAt_eq]
  cases scan l.convert l.filename (l.source.toList.drop l.offset) l.pos with
  | error f => rfl
  | ok s => rfl

/-- A lexer finds the token, leaves the text and comes to the position that the scanner without a
state gives for the text from the offset on. -/
theorem map_next (l : Lexer) :
    l.next.map (fun r => (r.1, r.2.rest, r.2.pos)) =
      (scanToken l.convert l.rest l.pos).mapError (Failure.labelled l.filename) := by
  rw [next_eq, scanToken_eq, rest, toList_extract_drop, scan_labelled]
  cases scan l.convert anonymous (l.source.toList.drop l.offset) l.pos with
  | error f => rfl
  | ok s =>
    have hleft : l.source.extract (l.offset + s.width) =
        (l.source.extract l.offset).extract s.width := by
      rw [← Array.toList_inj, toList_extract_drop, toList_extract_drop, toList_extract_drop,
        List.drop_drop]
    simp only [Except.map, Except.mapError, rest, hleft]

theorem tokens_of_error {f : Failure} (h : l.next = .error f) :
    l.tokens includeSkips = .error f l := by
  unfold tokens
  split
  · next e hnext =>
    rw [h] at hnext
    cases hnext
    rfl
  · next t l₁ hnext =>
    rw [h] at hnext
    cases hnext

theorem tokens_of_ok {t : Token} (h : l.next = .ok (t, l')) :
    l.tokens includeSkips =
      if t.isSkip && !includeSkips then l'.tokens includeSkips
      else if t.isEnd then .ok [t] l'
      else
        match l'.tokens includeSkips with
        | .error e l'' => .error e l''
        | .ok ts l'' => .ok (t :: ts) l'' := by
  conv => lhs; unfold tokens
  split
  · next e hnext =>
    rw [h] at hnext
    cases hnext
  · next u l₁ hnext =>
    rw [h] at hnext
    cases hnext
    rfl

end Lexer

namespace Cursor

/-- The end of input is not skipped. -/
theorem isSkip_of_isEnd {t : Token} (h : t.isEnd = true) : t.isSkip = false := by
  cases hskip : t.isSkip with
  | false => rfl
  | true =>
    rw [isEnd_of_isSkip hskip] at h
    cases h

/-- The lexer of a cursor: what lies behind and what lies ahead are one source. -/
def lexer (c : Cursor) : Lexer := ⟨c.source.toArray, c.offset, c.pos, c.filename, c.convert⟩

/-- The place of a cursor. -/
def spot (c : Cursor) : Spot := c.lexer.spot

/-- What lies ahead of a cursor is the source from the offset on. -/
theorem drop_offset_source (c : Cursor) : c.source.drop c.offset = c.rest := by
  rw [source, offset, ← List.length_reverse, List.drop_left]

theorem toList_rest_lexer (c : Cursor) : c.lexer.rest.toList = c.rest := by
  rw [Lexer.rest, toList_extract_drop, ← drop_offset_source]
  rfl

/-- Moving past a scanned token moves the offset over what it takes. -/
theorem lexer_advance {c : Cursor} {s : Scan} (h : s.width ≤ c.rest.length) :
    (c.advance s).lexer = { c.lexer with offset := c.offset + s.width, pos := s.next } := by
  have hsource : (c.advance s).source = c.source := by
    simp [advance, source]
  have hoffset : (c.advance s).offset = c.offset + s.width := by
    simp only [advance, offset, List.length_append, List.length_reverse, List.length_take]
    omega
  rw [lexer, hsource, hoffset]
  rfl

theorem next_lexer (c : Cursor) : c.lexer.next = c.next.map fun r => (r.1, r.2.lexer) := by
  have hdrop : c.lexer.source.toList.drop c.lexer.offset = c.rest := c.drop_offset_source
  rw [Lexer.next_eq, hdrop, next]
  show (scan c.convert c.filename c.rest c.pos).map _ = _
  cases h : scan c.convert c.filename c.rest c.pos with
  | error f => rfl
  | ok s =>
    simp only [Except.map, lexer_advance (scan_width_le h)]
    rfl

theorem tokens_lexer (includeSkips : Bool) (c : Cursor) :
    c.lexer.tokens includeSkips = (c.tokens includeSkips).mapState lexer := by
  fun_induction tokens includeSkips c with
  | case1 c f hnext =>
    refine Lexer.tokens_of_error ?_
    rw [next_lexer, hnext]
    rfl
  | case2 c t c' hnext hend =>
    have hnext' : c.lexer.next = .ok (t, c'.lexer) := by
      rw [next_lexer, hnext]
      rfl
    rw [Lexer.tokens_of_ok hnext', isSkip_of_isEnd hend, hend]
    rfl
  | case3 c t c' hnext hend f c'' htail ih =>
    have hnext' : c.lexer.next = .ok (t, c'.lexer) := by
      rw [next_lexer, hnext]
      rfl
    rw [Lexer.tokens_of_ok hnext', ih, htail, if_neg hend]
    split
    · rfl
    · rfl
  | case4 c t c' hnext hend ts c'' htail ih =>
    have hnext' : c.lexer.next = .ok (t, c'.lexer) := by
      rw [next_lexer, hnext]
      rfl
    rw [Lexer.tokens_of_ok hnext', ih, htail, if_neg hend]
    cases t.isSkip && !includeSkips with
    | true => rfl
    | false => rfl

theorem lexer_append (c : Cursor) (text : String) :
    c.lexer.append text = (c.append text).lexer := by
  simp [append, lexer, Lexer.append, source, offset]

theorem step_lexer (c : Cursor) (i : Step) :
    c.lexer.step i = (c.step i).mapState lexer := by
  cases i with
  | scan =>
    rw [Lexer.step, next_lexer, step]
    cases c.next with
    | error f => rfl
    | ok r => rfl
  | tokenize includeSkips =>
    rw [Lexer.step, tokens_lexer, step]
    cases c.tokens includeSkips with
    | error f c' => rfl
    | ok ts c' => rfl
  | append text =>
    rw [Lexer.step, lexer_append]
    rfl

theorem runSteps_lexer (c : Cursor) (is : List Step) :
    runSteps Lexer.step c.lexer is = (runSteps step c is).map fun r => (r.1, r.2.lexer) := by
  induction is generalizing c with
  | nil => rfl
  | cons i is ih =>
    rw [runSteps_cons, runSteps_cons, step_lexer, List.map_cons]
    cases c.step i with
    | ok a c' => exact congrArg _ (ih c')
    | error f c' => exact congrArg _ (ih c')

/-! ## Cursors at places -/

/-- A cursor scans the source from its offset on. -/
theorem map_next (c : Cursor) :
    c.next.map (fun r => (r.1, r.2.spot)) =
      (c.spot.scan c.convert).mapError (Failure.labelled c.filename) := by
  have hrest : c.spot.rest.toList = c.rest := c.toList_rest_lexer
  have hpos : c.spot.pos = c.pos := rfl
  rw [Spot.scan, scanToken_eq, hrest, hpos, next, scan_labelled]
  cases h : scan c.convert anonymous c.rest c.pos with
  | error f => rfl
  | ok s =>
    have hle := scan_width_le h
    have hsize : c.spot.rest.size - (c.spot.rest.extract s.width).size = s.width := by
      rw [Array.size_extract, ← Array.length_toList, hrest]
      omega
    have hspot : (c.advance s).spot =
        { c.spot with offset := c.spot.offset + s.width, pos := s.next } :=
      congrArg Lexer.spot (lexer_advance hle)
    show Except.ok (s.token, (c.advance s).spot) = _
    simp only [Except.map, Except.mapError, hsize, hspot]

theorem spot_of_next {c c' : Cursor} {t : Token} (h : c.next = .ok (t, c')) :
    c.spot.scan c.convert = .ok (t, c'.spot) := by
  have hmap := c.map_next
  rw [h] at hmap
  cases hscan : c.spot.scan c.convert with
  | error f =>
    rw [hscan] at hmap
    cases hmap
  | ok r =>
    rw [hscan] at hmap
    cases hmap
    rfl

theorem spot_of_next_error {c : Cursor} {f : Failure} (h : c.next = .error f) :
    ∃ f', c.spot.scan c.convert = .error f' ∧ f = f'.labelled c.filename := by
  have hmap := c.map_next
  rw [h] at hmap
  cases hscan : c.spot.scan c.convert with
  | error f' =>
    rw [hscan] at hmap
    exact ⟨f', rfl, Except.error.inj hmap⟩
  | ok r =>
    rw [hscan] at hmap
    cases hmap

/-- A run to the end scans again and again, up to the end of input or up to a failure. -/
theorem scans_of_tokens (c : Cursor) (includeSkips : Bool) :
    match c.tokens includeSkips with
    | .ok ts c' => c'.convert = c.convert ∧ c'.filename = c.filename ∧ ∃ us m t,
        Spot.Scans c.convert c.spot us m ∧ m.scan c.convert = .ok (t, c'.spot) ∧
        t.isEnd = true ∧ ts = Spot.listed includeSkips (us ++ [t])
    | .error f c' => c'.convert = c.convert ∧ c'.filename = c.filename ∧ ∃ us f',
        Spot.Scans c.convert c.spot us c'.spot ∧ c'.spot.scan c.convert = .error f' ∧
        f = f'.labelled c.filename := by
  fun_induction tokens includeSkips c with
  | case1 c f hnext =>
    obtain ⟨f', hscan, hf⟩ := spot_of_next_error hnext
    exact ⟨rfl, rfl, [], f', .nil _, hscan, hf⟩
  | case2 c t c' hnext hend =>
    refine ⟨convert_next hnext, filename_next hnext, [], _, t, .nil _, spot_of_next hnext, hend, ?_⟩
    rw [List.nil_append, Spot.listed_cons, isSkip_of_isEnd hend]
    cases includeSkips <;> rfl
  | case3 c t c' hnext hend f c'' htail ih =>
    rw [htail, convert_next hnext, filename_next hnext] at ih
    obtain ⟨hconvert, hfilename, us, f', hus, hscan, hf⟩ := ih
    exact ⟨hconvert, hfilename, t :: us, f',
      .cons (spot_of_next hnext) (by simpa using hend) hus, hscan, hf⟩
  | case4 c t c' hnext hend ts c'' htail ih =>
    rw [htail, convert_next hnext, filename_next hnext] at ih
    obtain ⟨hconvert, hfilename, us, m, u, hus, hscan, hu, rfl⟩ := ih
    refine ⟨hconvert, hfilename, t :: us, m, u,
      .cons (spot_of_next hnext) (by simpa using hend) hus, hscan, hu, ?_⟩
    rw [List.cons_append, Spot.listed_cons]

/-- A step of a cursor does what the step does at the place of the cursor. -/
theorem does_step (c : Cursor) (i : Step) :
    (stateOf (c.step i)).convert = c.convert ∧ (stateOf (c.step i)).filename = c.filename ∧
      ∃ a, Spot.Does c.convert c.spot i a (stateOf (c.step i)).spot ∧
        answerOf (c.step i) = a.mapError (Failure.labelled c.filename) := by
  cases i with
  | scan =>
    rw [step]
    cases hnext : c.next with
    | error f =>
      obtain ⟨f', hscan, rfl⟩ := spot_of_next_error hnext
      exact ⟨rfl, rfl, _, .refused hscan, rfl⟩
    | ok r => exact ⟨convert_next hnext, filename_next hnext, _, .scan (spot_of_next hnext), rfl⟩
  | tokenize includeSkips =>
    have hrun := c.scans_of_tokens includeSkips
    rw [step]
    cases htokens : c.tokens includeSkips with
    | error f c' =>
      rw [htokens] at hrun
      obtain ⟨hconvert, hfilename, us, f', hus, hscan, rfl⟩ := hrun
      exact ⟨hconvert, hfilename, _, .stopped includeSkips hus hscan, rfl⟩
    | ok ts c' =>
      rw [htokens] at hrun
      obtain ⟨hconvert, hfilename, us, m, t, hus, hscan, hend, rfl⟩ := hrun
      exact ⟨hconvert, hfilename, _, .tokenize includeSkips hus hscan hend, rfl⟩
  | append text =>
    have hspot : (c.append text).spot =
        { c.spot with source := c.spot.source ++ text.toList.toArray } := by
      simp [append, spot, lexer, Lexer.spot, source, offset]
    refine ⟨rfl, rfl, .ok .done, ?_, rfl⟩
    rw [show (stateOf (c.step (.append text))).spot = _ from hspot]
    exact .append c.spot text

/-- A sequence of steps of a cursor does what the steps do at the place of the cursor. -/
theorem run_runSteps (c : Cursor) (is : List Step) :
    ∃ rs, Spot.Run c.convert c.spot is rs ∧
      List.Forall₂ (fun r r' => r.1 = r'.1.mapError (Failure.labelled c.filename) ∧
        r.2.spot = r'.2) (runSteps step c is) rs := by
  induction is generalizing c with
  | nil => exact ⟨[], .nil _, .nil⟩
  | cons i is ih =>
    obtain ⟨hconvert, hfilename, a, hdoes, hanswer⟩ := c.does_step i
    obtain ⟨rs, hrun, hsame⟩ := ih (stateOf (c.step i))
    rw [hconvert] at hrun
    rw [hfilename] at hsame
    rw [runSteps_cons]
    exact ⟨_, .cons hdoes hrun, .cons ⟨hanswer, rfl⟩ hsame⟩

/-- A failed scan moves nothing. -/
theorem lexer_step_error {c : Cursor} {l : Lexer} {f : Failure}
    (h : c.lexer.step .scan = .error f l) : l = c.lexer := by
  rw [step_lexer, step] at h
  cases hnext : c.next with
  | error e =>
    rw [hnext] at h
    cases h
    rfl
  | ok r =>
    rw [hnext] at h
    cases h

/-- The end of input moves nothing. -/
theorem lexer_step_end {c : Cursor} {l : Lexer} {t : Token}
    (h : c.lexer.step .scan = .ok (.token t) l) (hend : t.isEnd = true) : l = c.lexer := by
  rw [step_lexer, step] at h
  cases hnext : c.next with
  | error e =>
    rw [hnext] at h
    cases h
  | ok r =>
    rw [hnext] at h
    cases h
    rw [(next_end hnext hend).2.1]

/-- What is appended lies behind what was left. -/
theorem rest_append (c : Cursor) (text : String) :
    (c.lexer.append text).rest = c.lexer.rest ++ text.toList.toArray := by
  rw [lexer_append, ← Array.toList_inj, Array.toList_append, toList_rest_lexer, toList_rest_lexer]
  rfl

/-- Every state of a run of a lexer is the lexer of a cursor. -/
theorem exists_of_mem_statesOf {c : Cursor} {steps : List Step} {l : Lexer}
    (h : l ∈ statesOf Lexer.step c.lexer steps) :
    ∃ c' : Cursor, c'.lexer = l ∧ c'.convert = c.convert ∧ c'.filename = c.filename := by
  let Inv (l : Lexer) : Prop :=
    ∃ c' : Cursor, c'.lexer = l ∧ c'.convert = c.convert ∧ c'.filename = c.filename
  have hkeeps : ∀ l i, Inv l → True → Inv (stateOf (l.step i)) := by
    rintro _ i ⟨c', rfl, hconvert, hfilename⟩ -
    obtain ⟨hconvert', hfilename', -⟩ := c'.does_step i
    refine ⟨stateOf (c'.step i), ?_, hconvert'.trans hconvert, hfilename'.trans hfilename⟩
    rw [step_lexer]
    cases c'.step i with
    | ok a c'' => rfl
    | error f c'' => rfl
  exact forall_statesOf Inv hkeeps c.lexer steps ⟨c, rfl, rfl, rfl⟩
    (allowed_of_forall (fun _ _ => trivial) _ _) l h

end Cursor

/-- Whatever a lexer over a source is asked, and however its steps fail, it answers as pure scans of
the text from its offset on do.  Each scan finds the token, leaves the text and comes to the
position that the scanner without a state gives for that text.  A failed scan and the end of input
move nothing, so a failed scan fails again, and text that is appended is scanned behind what was
left. -/
theorem Lexer.runSteps_spot (source filename : String) (convert : Converter)
    (steps : List Cursor.Step) :
    (∃ rs, Spot.Run convert ⟨source.toList.toArray, 0, .origin⟩ steps rs ∧
      (∀ rs', Spot.Run convert ⟨source.toList.toArray, 0, .origin⟩ steps rs' → rs' = rs) ∧
      List.Forall₂ (fun r r' => r.1 = r'.1.mapError (Failure.labelled filename) ∧
        r.2.spot = r'.2) (runSteps step (start source filename convert) steps) rs) ∧
    ∀ l ∈ statesOf step (start source filename convert) steps,
      l.next.map (fun r => (r.1, r.2.rest, r.2.pos)) =
        (scanToken convert l.rest l.pos).mapError (Failure.labelled filename) ∧
      (∀ f l', l.step .scan = .error f l' → l' = l ∧ l'.step .scan = .error f l') ∧
      (∀ t l', l.step .scan = .ok (.token t) l' → t.isEnd = true → l' = l) ∧
      ∀ text, ∃ l', l.step (.append text) = .ok .done l' ∧ l'.offset = l.offset ∧
        l'.pos = l.pos ∧ l'.rest = l.rest ++ text.toList.toArray := by
  have hstart : start source filename convert = (Cursor.start source filename convert).lexer := rfl
  obtain ⟨rs, hrun, hsame⟩ := (Cursor.start source filename convert).run_runSteps steps
  refine ⟨⟨rs, hrun, fun rs' hrun' => hrun'.unique hrun, ?_⟩, fun l hl => ?_⟩
  · rw [hstart, Cursor.runSteps_lexer, List.forall₂_map_left_iff]
    exact hsame
  · rw [hstart] at hl
    obtain ⟨c, rfl, hconvert, hfilename⟩ := Cursor.exists_of_mem_statesOf hl
    refine ⟨?_, fun f l' h => ?_, fun t l' h hend => ?_, fun text => ?_⟩
    · have hnext := c.lexer.map_next
      rwa [show c.lexer.convert = convert from hconvert,
        show c.lexer.filename = filename from hfilename] at hnext
    · obtain rfl := Cursor.lexer_step_error h
      exact ⟨rfl, h⟩
    · exact Cursor.lexer_step_end h hend
    · exact ⟨_, rfl, rfl, rfl, c.rest_append text⟩

end ExprFront
