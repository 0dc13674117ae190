import ExprFront.CommandLine.Run
import ExprFront.Proofs.Numerals
import ExprFront.Proofs.NumberTypes
import ExprFront.Proofs.Writing

/-!
# The command, source by source

Each source is handled on its own, so the command on several sources does what it does on each
of them alone, in order: the output and the errors are put together, and the status tells whether
some source failed.

* Whether a statement can be written is a matter of its yield (`Stmt.format_eq`): an overlong
  integer is the only obstacle that there is in a program.
* `Arguments.printout` is what a source is to print, line by line, or the failure that refuses it.
  Every such failure is a verdict on the source (`verdict_of_printout`).  From this follows what
  the source adds (`contribution_eq`): its lines, or nothing but its diagnostic.
* `runSources_eq` puts the sources together.

There is one way out.  A line with an integer too long to be written ends the command, and with
it the sources that are still to come.  It takes a source that is accepted and a number type
with integers of that size: exact decimals or fractions.

Main result: `run_sources`.
-/

namespace ExprFront

open Number

/-! ## What can be written -/

/-- Is the integer behind the mark, if there is one, short enough to be written? -/
def Mark.isWritable : Mark → Bool
  | .lexeme (.number v) => v.isPrintable
  | .lexeme _ => true
  | .length n => Value.shortInteger n

/-- The obstacle of an overlong integer, where not everything can be written. -/
def overlongUnless (writable : Bool) : Option FormatError :=
  if writable then none else some .overlong

@[simp] theorem overlongUnless_true : overlongUnless true = none := rfl

@[simp] theorem or_overlongUnless (a b : Bool) :
    (overlongUnless a).or (overlongUnless b) = overlongUnless (a && b) := by
  cases a <;> cases b <;> rfl

theorem Mark.all_separated (items : List (List Mark)) :
    (separated items).all isWritable = items.all (·.all isWritable) := by
  have hcomma : (Mark.particle .comma).isWritable = true := rfl
  cases items with
  | nil => rfl
  | cons item items => simp [separated, List.all_flatMap, hcomma]

namespace Expr

/-- Parameters are no integers. -/
theorem all_isWritable_parameters (ps : List String) :
    (Mark.separated (ps.map fun s => [Mark.name s])).all Mark.isWritable = true := by
  rw [Mark.all_separated, List.all_map]
  simp [Mark.isWritable]

mutual

/-- The only obstacle to writing an expression is an overlong integer. -/
theorem obstacle?_toTree : ∀ e : Expr,
    e.toTree.obstacle? = overlongUnless (e.yield.all Mark.isWritable)
  | number v _ => by
    simp [toTree, yield, Tree.obstacle?, Tree.anyObstacle?, Label.obstacle?, Mark.isWritable,
      overlongUnless]
  | name _ _ => by
    simp [toTree, yield, Tree.obstacle?, Tree.anyObstacle?, Label.obstacle?, Mark.isWritable,
      Label.isConstruct]
  | group e _ | unary _ e _ => by
    simp [toTree, yield, Tree.obstacle?, Tree.anyObstacle?, Label.obstacle?, Label.isConstruct,
      Mark.isWritable, obstacle?_toTree e]
  | binary _ l r _ => by
    simp [toTree, yield, Tree.obstacle?, Tree.anyObstacle?, Label.obstacle?, Label.isConstruct,
      Mark.isWritable, obstacle?_toTree l, obstacle?_toTree r]
  | ternary c t e _ => by
    simp [toTree, yield, Tree.obstacle?, Tree.anyObstacle?, Label.obstacle?, Label.isConstruct,
      Mark.isWritable, obstacle?_toTree c, obstacle?_toTree t, obstacle?_toTree e]
  | call _ es _ | list es _ => by
    simp [toTree, yield, Tree.obstacle?, Label.obstacle?, Label.isConstruct, Mark.isWritable,
      Mark.all_separated, anyObstacle?_toTrees es]
  | lambda ps e _ => by
    simp [toTree, yield, Tree.obstacle?, Tree.anyObstacle?, Label.obstacle?, Label.isConstruct,
      Mark.isWritable, all_isWritable_parameters, obstacle?_toTree e]
  | range v n step _ => by
    cases step with
    | none =>
      simp [toTree, yield, Tree.obstacle?, Tree.anyObstacle?, Label.obstacle?, Mark.isWritable,
        overlongUnless]
    | some w =>
      simp [toTree, yield, Tree.obstacle?, Tree.anyObstacle?, Label.obstacle?, Mark.isWritable,
        overlongUnless, and_assoc]

theorem anyObstacle?_toTrees : ∀ es : List Expr,
    Tree.anyObstacle? (toTrees es) = overlongUnless ((yields es).all (·.all Mark.isWritable))
  | [] => rfl
  | e :: es => by
    rw [toTrees, Tree.anyObstacle?, obstacle?_toTree e, anyObstacle?_toTrees es, or_overlongUnless,
      yields, List.all_cons]

end

end Expr

namespace Stmt

/-- Can all integers in the statement be written? -/
def isWritable (s : Stmt) : Bool := s.yield.all Mark.isWritable

/-- A statement is written unless an integer in it is overlong. -/
theorem format_eq (s : Stmt) :
    s.format = if s.isWritable then .ok s.text else .error .overlong := by
  have hobstacle : s.toTree.obstacle? = overlongUnless s.isWritable := by
    cases s with
    | assign x e p =>
      simp [toTree, isWritable, yield, Tree.obstacle?, Tree.anyObstacle?, Label.obstacle?,
        Label.isConstruct, Mark.isWritable, e.obstacle?_toTree]
    | expression e p =>
      simp [toTree, isWritable, yield, Tree.obstacle?, Tree.anyObstacle?, Label.obstacle?,
        Label.isConstruct, e.obstacle?_toTree]
  rw [format, Tree.format, hobstacle]
  cases s.isWritable with
  | true => rfl
  | false => rfl

/-- Statements are written unless an integer in one of them is overlong. -/
theorem mapM_format (ss : List Stmt) :
    ss.mapM format = if ss.all isWritable then .ok (ss.map text) else .error .overlong := by
  induction ss with
  | nil => rfl
  | cons s ss ih =>
    rw [List.mapM_cons, ih, format_eq]
    cases hs : s.isWritable with
    | true =>
      cases hss : ss.all isWritable with
      | true => simp [hs, hss, bind, pure, Except.bind, Except.pure]
      | false => simp [hs, hss, bind, Except.bind]
    | false => simp [hs, bind, Except.bind]

end Stmt

/-! ## One source -/

/-- A mark is writable where the number that it stands for is. -/
theorem Mark.isWritable_of_matches {m : Mark} {l : Lexeme} (h : m.Matches l)
    (hl : ∀ v, l = .number v → v.Writable) : m.isWritable = true := by
  cases m with
  | lexeme l' =>
    obtain rfl : l' = l := h
    cases l' with
    | number v => exact (hl v rfl).printable
    | name | particle | skip | endOfInput => rfl
  | length n =>
    obtain ⟨v, rfl, hn⟩ := Mark.exists_of_matches_length h
    exact (hl v rfl).length n hn

/-- What is related to some member of a list, with what is known of the members. -/
theorem forall_mem_of_forall₂ {α β : Type} {R : α → β → Prop} {Q : α → Prop} {xs : List α}
    {ys : List β} (h : List.Forall₂ R xs ys) (hR : ∀ x, ∀ y ∈ ys, R x y → Q x) :
    ∀ x ∈ xs, Q x := by
  induction h with
  | nil => simp
  | cons hxy _ ih =>
    exact List.forall_mem_cons.2 ⟨hR _ _ List.mem_cons_self hxy,
      ih fun x y hy => hR x y (List.mem_cons_of_mem _ hy)⟩

/-- A source is not tokenized because scanning it fails. -/
theorem refuses_of_tokenize {source filename : String} {convert : Converter} {skips : Bool}
    {f : Failure} (h : tokenize source filename convert skips = .error f) :
    (Cursor.start source filename convert).Refuses f := by
  refine Cursor.refuses_of_ahead _ f ?_
  cases hfailure : (Cursor.start source filename convert).ahead.failure? with
  | none =>
    obtain ⟨ts, hts, -⟩ := tokenize_of_ahead hfailure skips
    rw [h] at hts
    cases hts
  | some f' =>
    rw [tokenize_of_failure hfailure skips] at h
    rw [Except.error.inj h]

namespace CommandLine

/-- A line of output, and whether it can be written. -/
structure Line where
  text : String
  writable : Bool
deriving DecidableEq, Repr

/-- What a source is to print: a line for each token or for each statement, or the failure that
refuses the source. -/
def Arguments.printout (a : Arguments) (source : Source) : Except Failure (List Line) :=
  if a.tokens then
    (tokenize source.text source.filename a.numberType.converter a.skips).map fun ts =>
      ts.map fun t => ⟨t.dump, t.isPrintable⟩
  else
    (parseProgram (a.config source) source.text).map fun ss =>
      ss.map fun s => ⟨s.text, s.isWritable⟩

section OneSource

variable {a : Arguments} {source : Source}

/-- What a source adds: all its lines, or its diagnostic and nothing else.  It is a breakdown if
some line cannot be written. -/
theorem contribution_eq (hdebug : a.debug = false) :
    contribution a source =
      match a.printout source with
      | .error f => .ok ⟨true, "", errorText f⟩
      | .ok ls =>
        if ls.all Line.writable then .ok ⟨false, lines (ls.map Line.text), ""⟩
        else .error .overlong := by
  unfold contribution Arguments.printout
  split
  · unfold tokenContribution
    cases tokenize source.text source.filename a.numberType.converter a.skips with
    | error f => rfl
    | ok ts =>
      simp only [Except.map, dumpAll, List.all_map, List.map_map, hdebug]
      by_cases hts : ts.all Token.isPrintable
      · simp [hts, Function.comp_def]
      · simp [hts, Function.comp_def]
  · unfold programContribution
    simp only [hdebug]
    cases parseProgram (a.config source) source.text with
    | error f => simp [Except.map]
    | ok ss =>
      simp only [Except.map, Stmt.mapM_format, List.all_map, List.map_map]
      by_cases hss : ss.all Stmt.isWritable
      · simp [hss, Function.comp_def]
      · simp [hss, Function.comp_def]

/-- A source is refused with a verdict that names it. -/
theorem verdict_of_printout {f : Failure} (h : a.printout source = .error f) :
    (∃ e : LexError, f = .lexical e ∧ e.filename = source.filename) ∨
      ∃ e : ParseError, f = .grammatical e ∧ e.filename = source.filename := by
  have hdecides : (a.config source).Decides := fun text _ e he => NamedType.kind_of_converter he
  unfold Arguments.printout at h
  split at h
  · cases hts : tokenize source.text source.filename a.numberType.converter a.skips with
    | ok ts =>
      rw [hts] at h
      cases h
    | error f' =>
      rw [hts] at h
      cases h
      rcases refuses_of_tokenize hts with hlexical | ⟨text, e, htext, he, hkind, -⟩
      · exact .inl hlexical
      · exact absurd hkind (hdecides text htext e he)
  · have hcases := parseProgram_cases (a.config source) source.text
    cases hss : parseProgram (a.config source) source.text with
    | ok ss =>
      rw [hss] at h
      cases h
    | error f' =>
      rw [hss] at h hcases
      cases h
      have hvalid : (a.config source).Valid := Config.valid_standard
      rcases hcases.cases_of_valid hvalid hdecides with
        ⟨e, rfl, he⟩ | ⟨x, rfl, -⟩ | ⟨-, t, ht⟩
      · exact .inl ⟨e, rfl, he⟩
      · exact .inr ⟨_, rfl, rfl⟩
      · obtain ⟨text, v, htext, hv, hundefined⟩ := ht.givesUndefined
        rw [NamedType.isUndefined_of_converter htext hv] at hundefined
        cases hundefined

/-- Only exact decimals and fractions have lines that cannot be written. -/
theorem writable_of_printout (hdecimal : a.numberType ≠ .decimal)
    (hfraction : a.numberType ≠ .fraction) {ls : List Line} (h : a.printout source = .ok ls) :
    ls.all Line.writable = true := by
  have htoken : ∀ t ∈ ((a.config source).session source.text).ahead.tokens, ∀ v,
      t.lexeme = .number v → v.Writable := by
    intro t ht v hv
    obtain ⟨text, -, htext⟩ := (Cursor.start source.text source.filename
      a.numberType.converter).convert_of_mem_ahead t ht v hv
    exact NamedType.writable_of_converter hdecimal hfraction htext
  unfold Arguments.printout at h
  split at h
  · cases hts : tokenize source.text source.filename a.numberType.converter a.skips with
    | error f =>
      rw [hts] at h
      cases h
    | ok ts =>
      rw [hts] at h
      cases h
      rw [List.all_map, List.all_eq_true]
      intro t ht
      show t.isPrintable = true
      unfold Token.isPrintable
      split
      · next v hv =>
        have hmem : t ∈ significant ts :=
          List.mem_filter.2 ⟨ht, by simp [Token.isSkip, Token.isEnd, hv]⟩
        rw [← (ahead_of_tokenize hts).2] at hmem
        exact (htoken t hmem v hv).printable
      · rfl
  · have hcases := parseProgram_cases (a.config source) source.text
    cases hss : parseProgram (a.config source) source.text with
    | error f =>
      rw [hss] at h
      cases h
    | ok ss =>
      rw [hss] at h hcases
      cases h
      have hyield := hcases.2.yield
        (Config.definite_session (NamedType.converter_ne_nothing a.numberType) source.text)
      have hmarks : ∀ m ∈ ss.flatMap Stmt.yield, m.isWritable = true :=
        forall_mem_of_forall₂ hyield fun m t ht hm => Mark.isWritable_of_matches hm (htoken t ht)
      rw [List.all_map, List.all_eq_true]
      intro s hs
      exact List.all_eq_true.2 fun m hm => hmarks m (List.mem_flatMap.2 ⟨s, hs, hm⟩)

end OneSource

/-! ## All sources -/

/-- Each source with what is left of the standard input for it: the first `-` takes all. -/
def shares (stdin : String) : List String → List (String × String)
  | [] => []
  | arg :: rest => (arg, stdin) :: shares (if arg = "-" then "" else stdin) rest

/-- The source that an argument stands for, given what is left of the standard input. -/
def sourceOf (share : String × String) : Source :=
  if share.1 = "-" then ⟨"<stdin>", share.2⟩ else ⟨"<argument>", share.1⟩

/-- What the command does on one source alone. -/
def Arguments.alone (a : Arguments) (share : String × String) : Except FormatError Result :=
  runSources { a with sources := [share.1] } share.2

/-- The outputs and the errors of several runs put together; the status tells whether one of them
failed. -/
def join (rs : List Result) : Result where
  status := if rs.any (·.status ≠ 0) then 1 else 0
  output := String.join (rs.map Result.output)
  errors := String.join (rs.map Result.errors)

theorem sourcesOf_eq_map (stdin : String) (args : List String) :
    sourcesOf stdin args = (shares stdin args).map sourceOf := by
  induction args generalizing stdin with
  | nil => rfl
  | cons arg rest ih =>
    by_cases harg : arg = "-"
    · subst harg
      rw [sourcesOf, shares, List.map_cons, if_pos rfl, ih, sourceOf, if_pos rfl]
    · rw [sourcesOf, shares, List.map_cons, if_neg harg, ih, sourceOf, if_neg harg]
      exact harg

theorem join_gather (cs : List Contribution) : join (cs.map fun c => gather [c]) = gather cs := by
  have hstatus : (fun c : Contribution => decide ((gather [c]).status ≠ 0)) =
      Contribution.failed := by
    funext c
    cases hc : c.failed with
    | true => simp [gather, hc]
    | false => simp [gather, hc]
  have houtput : (fun c : Contribution => (gather [c]).output) = Contribution.output := by
    funext c
    simp [gather, String.join]
  have herrors : (fun c : Contribution => (gather [c]).errors) = Contribution.errors := by
    funext c
    simp [gather, String.join]
  rw [join, List.any_map, List.map_map, List.map_map, Function.comp_def, Function.comp_def,
    Function.comp_def, hstatus, houtput, herrors, gather]

/-- Alone, a source adds what it adds among others. -/
theorem alone_eq (a : Arguments) (share : String × String) :
    a.alone share = (contribution a (sourceOf share)).map fun c => gather [c] := by
  have hsame : contribution { a with sources := [share.1] } (sourceOf share) =
      contribution a (sourceOf share) := rfl
  rw [Arguments.alone, runSources, sourcesOf_eq_map, shares, shares, List.map_cons, List.map_nil,
    List.mapM_cons, List.mapM_nil, hsame]
  cases contribution a (sourceOf share) with
  | error e => rfl
  | ok c => rfl

theorem mapM_map_except {ε α β γ : Type} (f : α → Except ε β) (g : β → γ) (xs : List α) :
    (xs.mapM fun x => (f x).map g) = (xs.mapM f).map (List.map g) := by
  induction xs with
  | nil => rfl
  | cons x xs ih =>
    rw [List.mapM_cons, List.mapM_cons, ih]
    cases f x with
    | error e => rfl
    | ok b =>
      cases xs.mapM f with
      | error e => rfl
      | ok bs => rfl

/-- The command does on all sources what it does on each of them alone. -/
theorem runSources_eq (a : Arguments) (stdin : String) :
    runSources a stdin = ((shares stdin a.sources).mapM a.alone).map join := by
  have halone : a.alone = fun share =>
      (contribution a (sourceOf share)).map fun c => gather [c] := funext (alone_eq a)
  rw [runSources, sourcesOf_eq_map, List.mapM_map, halone, mapM_map_except]
  show _ = Except.map join
    (Except.map _ ((shares stdin a.sources).mapM (contribution a ∘ sourceOf)))
  cases (shares stdin a.sources).mapM (contribution a ∘ sourceOf) with
  | error e => rfl
  | ok cs => exact congrArg Except.ok (join_gather cs).symm

/-- What a source adds to a run that does not break down: all its lines, or its diagnostic and
nothing else. -/
inductive Arguments.Adds (a : Arguments) (source : Source) : Result → Prop where
  | accepted {ls : List Line} (h : a.printout source = .ok ls)
      (hwritable : ∀ l ∈ ls, l.writable = true) : Adds a source ⟨0, lines (ls.map Line.text), ""⟩
  | refused {f : Failure} {report : Report} (h : a.printout source = .error f)
      (hreport : f.report? = some report) (hname : report.filename = source.filename) :
      Adds a source ⟨1, "", report.render⟩

/-- The source is accepted, but a line of it cannot be written. -/
def Arguments.Overlong (a : Arguments) (source : Source) : Prop :=
  ∃ ls, a.printout source = .ok ls ∧ ∃ l ∈ ls, l.writable = false

/-- A source alone adds something, unless it is accepted and has an integer too long to be
written. -/
theorem alone_cases {a : Arguments} (hdebug : a.debug = false) (share : String × String) :
    (∃ r, a.alone share = .ok r ∧ a.Adds (sourceOf share) r) ∨
      a.alone share = .error .overlong ∧ a.Overlong (sourceOf share) ∧
        a.numberType ∈ [.decimal, .fraction] := by
  rw [alone_eq, contribution_eq hdebug]
  cases hprint : a.printout (sourceOf share) with
  | error f =>
    have hreport : ∃ report, f.report? = some report ∧
        report.filename = (sourceOf share).filename := by
      rcases verdict_of_printout hprint with ⟨e, rfl, he⟩ | ⟨e, rfl, he⟩
      · exact ⟨e.report, rfl, he⟩
      · exact ⟨e.report, rfl, he⟩
    obtain ⟨report, hreport, hname⟩ := hreport
    refine .inl ⟨_, ?_, .refused hprint hreport hname⟩
    simp [Except.map, gather, errorText, hreport, String.join]
  | ok ls =>
    cases hall : ls.all Line.writable with
    | true =>
      refine .inl ⟨_, ?_, .accepted hprint (List.all_eq_true.1 hall)⟩
      simp [Except.map, gather, hall, String.join]
    | false =>
      refine .inr ⟨by simp [Except.map, hall], ⟨ls, hprint, ?_⟩, ?_⟩
      · obtain ⟨l, hl, hw⟩ := List.all_eq_false.1 hall
        exact ⟨l, hl, Bool.eq_false_of_not_eq_true hw⟩
      · by_contra hother
        simp only [List.mem_cons, List.not_mem_nil, or_false, not_or] at hother
        rw [writable_of_printout hother.1 hother.2 hprint] at hall
        cases hall

theorem mapM_cases {ε α β : Type} {f : α → Except ε β} {P : α → β → Prop} {Q : α → Prop} {e : ε}
    {xs : List α} (h : ∀ x ∈ xs, (∃ b, f x = .ok b ∧ P x b) ∨ f x = .error e ∧ Q x) :
    (∃ bs, xs.mapM f = .ok bs ∧ List.Forall₂ (fun x b => f x = .ok b ∧ P x b) xs bs) ∨
      xs.mapM f = .error e ∧ ∃ x ∈ xs, Q x := by
  induction xs with
  | nil => exact .inl ⟨[], rfl, .nil⟩
  | cons x xs ih =>
    obtain ⟨hx, hxs⟩ := List.forall_mem_cons.1 h
    rw [List.mapM_cons]
    rcases hx with ⟨b, hb, hP⟩ | ⟨he, hQ⟩
    · rcases ih hxs with ⟨bs, hbs, hall⟩ | ⟨he, y, hy, hQ⟩
      · rw [hb, hbs]
        exact .inl ⟨b :: bs, rfl, .cons ⟨hb, hP⟩ hall⟩
      · rw [hb, he]
        exact .inr ⟨rfl, y, List.mem_cons_of_mem x hy, hQ⟩
    · rw [he]
      exact .inr ⟨rfl, x, List.mem_cons_self, hQ⟩

/-- The command takes the sources in order.  Each of them adds what it adds alone, its lines or
its diagnostic, whatever stands before and after it.  If the command breaks down instead, then
some source is accepted that has an integer too long to be written, under a number type that
is exact. -/
theorem run_sources {argv : List String} {a : Arguments} (hread : Arguments.read argv = .ok a)
    (hdebug : a.debug = false) (stdin : String) :
    (∃ rs, run argv stdin = .ok (join rs) ∧
      List.Forall₂ (fun share r => a.alone share = .ok r ∧ a.Adds (sourceOf share) r)
        (shares stdin a.sources) rs) ∨
    run argv stdin = .error (.format .overlong) ∧ a.numberType ∈ [.decimal, .fraction] ∧
      ∃ share ∈ shares stdin a.sources, a.Overlong (sourceOf share) := by
  rw [run, hread]
  dsimp only
  rw [runSources_eq]
  rcases mapM_cases fun share (_ : share ∈ shares stdin a.sources) => alone_cases hdebug share with
    ⟨rs, hrs, hall⟩ | ⟨he, share, hmem, hoverlong, htype⟩
  · rw [hrs]
    exact .inl ⟨rs, rfl, hall⟩
  · rw [he]
    exact .inr ⟨rfl, htype, share, hmem, hoverlong⟩

/-- A literal out of range, a name, the standard input and an empty text. -/
theorem run_sources_mixed :
    let argv := ["--number-type", "int8", "x = 300", "y", "-", "-"]
    let a : Arguments := ⟨["x = 300", "y", "-", "-"], false, false, false, .fixedInt ⟨true, .w8⟩⟩
    Arguments.read argv = .ok a ∧ a.debug = false ∧
      ∃ rs, run argv "z // last" = .ok (join rs) ∧
        List.Forall₂ (fun share r => a.alone share = .ok r ∧ a.Adds (sourceOf share) r)
          [("x = 300", "z // last"), ("y", "z // last"), ("-", "z // last"), ("-", "")] rs := by
  intro argv a
  have hread : Arguments.read argv = .ok a := by decide +kernel
  refine ⟨hread, rfl, ?_⟩
  rcases run_sources hread rfl "z // last" with h | ⟨_, htype, _⟩
  · exact h
  · exact absurd htype (by decide)

end CommandLine

/-! ## A literal that stops the command -/

/-- A source that is one numeral is one statement. -/
theorem parseProgram_numeral {c : Config} (hvalid : c.Valid) {text : String}
    (htext : IsNumeral text.toList) {v : Value} (hv : c.convert text = .ok v) (hne : v ≠ .nothing) :
    ∃ pos, parseProgram c text = .ok [.expression (.number v pos) pos] := by
  have hwritten : List.Forall₂ (Mark.WrittenAs c.convert) [.number v] [text] :=
    .cons (.number htext hv hne) .nil
  obtain ⟨hfailure, hspelled, -⟩ := Cursor.ahead_of_written hwritten
    (.start text c.filename c.convert) [] rfl isGap_nil (by simp [Cursor.start])
  obtain ⟨t, htokens, ht⟩ := hspelled.of_singleton
  have hnumber : t.lexeme = .number v := ht.symm
  have hstmt : ParsedStmt (.expression (.number v t.pos) t.pos) [t] [] :=
    ⟨.expression (.number hnumber), .number v t.pos, stops_nil 0 _ _⟩
  refine ⟨t.pos, parseProgram_of_program hvalid hfailure ?_⟩
  show Program _ (Cursor.start text c.filename c.convert).ahead.tokens
  rw [htokens]
  exact .cons hstmt .nil

/-- The fraction of a numeral with nothing but a zero before the point. -/
theorem Converter.readFraction_below {ds : List Char} (hds : IsDigits ds)
    (hlength : ds.length ≤ maxDigits) :
    readFraction (String.ofList ('0' :: '.' :: ds)) =
      .ok (mkRat (digitsValue ds) (10 ^ ds.length)) := by
  let n : Numeral := ⟨false, ['0'], ds, .none⟩
  have hwellFormed : n.WellFormed := ⟨⟨by simp [n], by simp [n]⟩, hds.2, .inl rfl⟩
  have hspelled : n.spelled = '0' :: '.' :: ds := by
    simp [n, Numeral.spelled_of_none, pointedFraction, hds.1]
  have hwhole : n.whole.length ≤ maxDigits := Nat.le_of_ble_eq_true rfl
  have hvalue : n.coefficient = digitsValue ds := digitsValue_replicate_zero 1 ds
  rw [← hspelled, readFraction_spelled hwellFormed,
    fractionOfNumeral_literal rfl hwhole hlength, hvalue]
  rfl

/-- The digits of the least fraction with `maxDigits` decimal places. -/
def tinyDigits : List Char := List.replicate (maxDigits - 1) '0' ++ ['1']

/-- The least fraction with `maxDigits` decimal places.  Its denominator has one digit more. -/
def tinyLiteral : String := String.ofList ('0' :: '.' :: tinyDigits)

theorem length_tinyDigits : tinyDigits.length = maxDigits := by
  rw [tinyDigits, List.length_append, List.length_replicate]
  rfl

theorem isDigits_tinyDigits : IsDigits tinyDigits := by
  refine ⟨by simp [tinyDigits], fun c hc => ?_⟩
  rcases List.mem_append.1 hc with hc | hc
  · rw [(List.mem_replicate.1 hc).2]
    rfl
  · rw [List.mem_singleton.1 hc]
    rfl

theorem digitsValue_tinyDigits : digitsValue tinyDigits = 1 := by
  simp [digitsValue, tinyDigits, Nat.ofDigitChars_append, Nat.ofDigitChars_replicate_zero,
    Nat.ofDigitChars_cons]

theorem isNumeral_tinyLiteral : IsNumeral tinyLiteral.toList := by
  rw [tinyLiteral, String.toList_ofList]
  exact ⟨[], ['0'], '.' :: tinyDigits, rfl, .inl rfl, ⟨by simp, by simp⟩,
    .inr ⟨tinyDigits, rfl, isDigits_tinyDigits⟩⟩

theorem convert_tinyLiteral :
    NamedType.fraction.converter tinyLiteral = .ok (.fraction (mkRat 1 (10 ^ maxDigits))) := by
  have hread := Converter.readFraction_below isDigits_tinyDigits length_tinyDigits.le
  rw [digitsValue_tinyDigits, length_tinyDigits] at hread
  rw [NamedType.converter, Converter.fraction, tinyLiteral, hread, Except.map, Nat.cast_one]

/-- A fraction is not written if its denominator is too long. -/
theorem Value.not_isPrintable_of_den {q : Rat} (h : 10 ^ maxDigits ≤ q.den) :
    (Value.fraction q).isPrintable = false := by
  have hden : shortInteger q.den = false := decide_eq_false (Nat.not_lt.2 h)
  rw [isPrintable, hden, Bool.and_false]

namespace CommandLine

/-- An argument that does not start with a dash is a source. -/
theorem classifyAll_cons {arg : String} (h : arg.toList.head? ≠ some '-') (rest : List String) :
    classifyAll (arg :: rest) = (classifyAll rest).map fun items => ⟨arg, .source⟩ :: items := by
  have hsource : classify arg = .ok .source := by
    rw [classify]
    exact if_pos h
  rw [classifyAll, hsource]
  · cases classifyAll rest with
    | error m => rfl
    | ok items => rfl
  · rintro rfl
    exact h rfl

/-- The arguments for two sources, read as fractions. -/
theorem read_fractions {arg : String} (h : arg.toList.head? ≠ some '-') :
    Arguments.read ["--number-type", "fraction", arg, "ok"] =
      .ok ⟨[arg, "ok"], false, false, false, .fraction⟩ := by
  have hitems : classifyAll ["--number-type", "fraction", arg, "ok"] =
      .ok [⟨"--number-type", .option .numberType false none⟩, ⟨"fraction", .source⟩,
        ⟨arg, .source⟩, ⟨"ok", .source⟩] := by
    have hoption : classify "--number-type" = .ok (.option .numberType false none) := rfl
    have hok : classifyAll ["ok"] = .ok [⟨"ok", .source⟩] := rfl
    rw [classifyAll, hoption, classifyAll_cons (by decide), classifyAll_cons h, hok]
    · rfl
    · decide
  have hdash : arg ≠ "--" := by
    rintro rfl
    exact h rfl
  have hname : NamedType.ofName? "fraction" = some .fraction := rfl
  rw [Arguments.read, hitems]
  simp [Progress.read, Progress.start, Progress.closeRun, Progress.setNumberType, hname, hdash]

/-- A numeral whose fraction cannot be written is accepted, but the command breaks down on it. -/
theorem run_overlong {text : String} (hhead : text.toList.head? ≠ some '-')
    (htext : IsNumeral text.toList) {v : Value}
    (hv : NamedType.fraction.converter text = .ok v) (hprint : v.isPrintable = false) :
    run ["--number-type", "fraction", text, "ok"] "" = .error (.format .overlong) := by
  have hsource : sourceOf (text, "") = ⟨"<argument>", text⟩ := by
    refine if_neg ?_
    rintro rfl
    exact hhead rfl
  have hne : v ≠ .nothing := by
    rintro rfl
    exact NamedType.converter_ne_nothing _ _ hv
  let a : Arguments := ⟨[text, "ok"], false, false, false, .fraction⟩
  obtain ⟨pos, hparse⟩ := parseProgram_numeral (c := a.config ⟨"<argument>", text⟩)
    Config.valid_standard htext hv hne
  have hwritable : (Stmt.expression (.number v pos) pos).isWritable = false := by
    simp [Stmt.isWritable, Stmt.yield, Expr.yield, Mark.isWritable, hprint]
  have halone : a.alone (text, "") = .error .overlong := by
    rw [alone_eq, contribution_eq rfl, hsource]
    simp [Arguments.printout, a, hparse, Except.map, hwritable]
  rw [run, read_fractions hhead]
  dsimp only
  rw [runSources_eq, shares, List.mapM_cons, halone]
  rfl

/-- The source after the literal is not reached, though it has an output of its own. -/
theorem run_tinyLiteral :
    run ["--number-type", "fraction", tinyLiteral, "ok"] "" = .error (.format .overlong) ∧
      run ["--number-type", "fraction", "ok"] "" = .ok ⟨0, "ok\n", ""⟩ := by
  have hhead : tinyLiteral.toList.head? ≠ some '-' := by
    rw [tinyLiteral, String.toList_ofList, List.head?_cons]
    decide
  have hden : (mkRat 1 (10 ^ maxDigits)).den = 10 ^ maxDigits := by simp [Rat.den_mkRat]
  exact ⟨run_overlong hhead isNumeral_tinyLiteral convert_tinyLiteral
    (Value.not_isPrintable_of_den hden.ge), by decide +kernel⟩

end CommandLine

end ExprFront
