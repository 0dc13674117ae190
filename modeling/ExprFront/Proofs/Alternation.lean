import ExprFront.Proofs.ReadPoint
import ExprFront.Proofs.Viability

/-!
# Items and commas

The arguments of a call, the parameters of a function and the values of a list are read by one
rule, `Grammar.delimited`.  This module says what that rule makes of the tokens after an
opening delimiter, whatever they are.

* `ItemRule` is a kind of items: the tokens that are an item, and the fault of the rule for
  one item where no item starts.
* `Listed` and `Due` say how far the tokens alternate: up to the end of an item, or up to a
  place where an item is due.  What the end of an item is depends on the tokens after it.
* `Course` lists the ways in which the alternation can end, and `Reaches` says which answer or
  which fault belongs to each.

An item is arbitrary here; `Takes` says what is needed of the rule for one item.  From that, one
turn of the loop passes one comma and one item (`Arrives.comma`, `Arrives.parsed`), and by
induction on the items the loop arrives behind the last of them (`arrives_of_listed`).

Scanning may fail behind the tokens.  That matters only if the alternation ends with the last
token: an item that stops before a token is read without a look beyond that token, because no
expression begins with all the tokens (`Parsed.not_begun`).

Main result: `delimited_alternates`.
-/

namespace ExprFront

/-! ## Expressions end at one place only -/

/-- A buffer that holds the tokens and has met the end of input. -/
def Buffer.holding (ts : List Token) : Buffer :=
  ⟨Cursor.start "" anonymous NamedType.integer.converter, ts, true, 0, none, 2⟩

namespace Grammar

open Buffer

/-- A rule that answers with no fault answers, unless scanning fails after all the tokens. -/
theorem Answers.run {α : Type} {p : Parser α} {b : Buffer} {a : α} {ts rest : List Token}
    (h : Answers p b a rest) (hcapacity : 2 ≤ b.capacity) (hb : b.ahead.tokens = ts ++ rest) :
    (∃ b', p b = .ok a b' ∧ b.Consumes ts b') ∨
      ∃ f b', p b = .error f b' ∧ b.ahead.failure? = some f := by
  unfold Answers MeetsIn MeetsWith at h
  cases hp : p b with
  | ok x b' =>
    rw [hp] at h
    obtain ⟨us, hus, rfl, rfl⟩ := h
    have hts : us = ts := List.append_cancel_right (hus.tokens.symm.trans hb)
    exact .inl ⟨b', rfl, hts ▸ hus⟩
  | error f b' =>
    rw [hp] at h
    obtain ⟨us, -, hv⟩ := h
    cases hv with
    | scanning hf => exact .inr ⟨f, b', rfl, hf⟩
    | shallow hc ho => omega
    | fault hx => exact hx.elim
    | undefined hx _ => exact hx.elim

/-- A failure of scanning is met only behind all the tokens. -/
theorem FailsAfter.good_of_scanning {α : Type} {Good : List Token → Prop} {p : Parser α}
    {b b' : Buffer} {f : Failure} (h : FailsAfter Good [] p b) (hcapacity : 2 ≤ b.capacity)
    (hrun : p b = .error f b') (hf : b.ahead.failure? = some f) : Good b.ahead.tokens := by
  obtain ⟨ts, rest, hsplit, hgood, hblames⟩ := h hcapacity f b' hrun
  cases hblames with
  | token _ => exact absurd hf (failure?_ne_grammatical b _)
  | finish _ hend =>
    rw [hend] at hf
    cases hf
  | scanning _ =>
    rw [List.nil_append, List.append_nil] at hsplit
    rwa [hsplit]
  | undefined => exact absurd hf (failure?_ne_undefinedOrder b)

end Grammar

/-- The tokens decide which expression they begin with, and where it ends. -/
theorem Parsed.unique {e e' : Expr} {ts us rest rest' : List Token} (h : Parsed 0 e ts rest)
    (h' : Parsed 0 e' us rest') (heq : ts ++ rest = us ++ rest') : e = e' ∧ rest = rest' := by
  let n := (ts ++ rest).length + 1
  let b := Buffer.holding (ts ++ rest)
  have hts : ts.length < n := by simp only [n, List.length_append]; omega
  have hus : us.length < n := by simp only [n, heq, List.length_append]; omega
  rcases (Grammar.completes_expression n h hts (b := b) rfl).run (Int.le_refl 2) rfl with
    ⟨b₁, hrun, hb₁⟩ | ⟨f, b₁, -, hf⟩
  · rcases (Grammar.completes_expression n h' hus (b := b) heq).run (Int.le_refl 2) heq with
      ⟨b₂, hrun', hb₂⟩ | ⟨f, b₂, -, hf⟩
    · rw [hrun] at hrun'
      cases hrun'
      have hrest : rest = b₁.ahead.tokens := List.append_cancel_left hb₁.tokens
      have hrest' : rest' = b₁.ahead.tokens := List.append_cancel_left (heq.symm.trans hb₂.tokens)
      exact ⟨rfl, hrest.trans hrest'.symm⟩
    · cases hf
  · cases hf

/-- A stratified tree is read from tokens of which the first is a number, a name, or a particle
that opens expressions. -/
theorem Expr.Reads.starts {e : Expr} {ts : List Token} (h : e.Reads ts) : e.Stratified →
    ∃ t us, ts = t :: us ∧ ((∃ v, t.lexeme = .number v) ∨ (∃ s, t.lexeme = .name s) ∨
      ∃ p ∈ openers, t.lexeme = .particle p) := by
  induction h with
  | number ht => exact fun _ => ⟨_, _, rfl, .inl ⟨_, ht⟩⟩
  | name ht => exact fun _ => ⟨_, _, rfl, .inr (.inl ⟨_, ht⟩)⟩
  | group ho | list ho | range ho | rangeStep ho =>
    exact fun _ => ⟨_, _, rfl, .inr (.inr ⟨_, by decide, ho⟩)⟩
  | call hw | lambda hw => exact fun _ => ⟨_, _, rfl, .inr (.inl ⟨_, hw⟩)⟩
  | unary ht _ _ =>
    intro hstrat
    cases hstrat with
    | unary hop _ _ =>
      have hopener : ∀ p ∈ Grammar.unaryOperators, p ∈ openers := by decide
      exact ⟨_, _, rfl, .inr (.inr ⟨_, hopener _ hop, ht⟩)⟩
  | binary _ _ _ ihl _ =>
    intro hstrat
    cases hstrat with
    | binary t hop _ _ _ hl _ =>
      obtain ⟨u, us, rfl, hu⟩ := ihl hl
      exact ⟨u, _, rfl, hu⟩
  | ternary _ _ _ _ _ ihc _ _ =>
    intro hstrat
    cases hstrat with
    | ternary _ _ hc _ _ =>
      obtain ⟨u, us, rfl, hu⟩ := ihc hc
      exact ⟨u, _, rfl, hu⟩

/-- At the end of input everything stops. -/
theorem Expr.WellRead.parsed {e : Expr} {ts : List Token} (h : e.WellRead ts) :
    Parsed 0 e ts [] := by
  refine ⟨h.1, h.2, Nat.zero_le _, ⟨?_, ?_, ?_, ?_⟩⟩
  all_goals intros; exact not_next_nil

/-- A kind of items, and how the rule for one item fails where none starts. -/
structure ItemRule (α : Type) where
  /-- The tokens, followed by the rest, are the item. -/
  Parsed : α → List Token → List Token → Prop
  /-- The fault at a place that holds the token, or at the end of input. -/
  misfit : Option Token → Position → ParseFault
  /-- What has been consumed when the fault is found. -/
  taken : Option Token → List Token

namespace ItemRule

/-- Can an item start with the token? -/
def Starts {α : Type} (I : ItemRule α) (t : Token) : Prop := ∃ x ts rest, I.Parsed x (t :: ts) rest

/-- The items of calls and lists. -/
def expression : ItemRule Expr where
  Parsed := ExprFront.Parsed 0
  misfit found pos := .invalidExpression invalidExpressionMessage pos found
  taken _ := []

/-- The parameters of a function. -/
def parameter : ItemRule String where
  Parsed s ts _ := ReadsParameter s ts
  misfit found pos := found.elim (.unexpectedEnd "a parameter" pos) (.unexpectedToken "a parameter")
  taken := Option.toList

end ItemRule

section Courses

variable {α : Type} (I : ItemRule α)

/-- The tokens `ts`, followed by `rest`, are at least one item, with single commas between
them. -/
inductive Listed : List α → List Token → List Token → Prop where
  | first {x : α} {ts rest : List Token} (hx : I.Parsed x ts rest) : Listed [x] ts rest
  | next {x : α} {xs : List α} {comma : Token} {ts us rest : List Token}
      (h : Listed xs ts (comma :: (us ++ rest))) (hcomma : comma.lexeme = .particle .comma)
      (hx : I.Parsed x us rest) : Listed (xs ++ [x]) (ts ++ comma :: us) rest

/-- After the tokens `ts`, an item is due: nothing has been read, or items and a comma. -/
inductive Due : List Token → List Token → Prop where
  | first {rest : List Token} : Due [] rest
  | next {xs : List α} {comma : Token} {ts rest : List Token} (h : Listed I xs ts (comma :: rest))
      (hcomma : comma.lexeme = .particle .comma) : Due (ts ++ [comma]) rest

variable {I}

/-- An item that stands where one is due. -/
theorem Due.item {ts us rest : List Token} {x : α} (h : Due I ts (us ++ rest))
    (hx : I.Parsed x us rest) : ∃ xs, Listed I xs (ts ++ us) rest := by
  cases h with
  | first => exact ⟨[x], .first hx⟩
  | @next xs comma ts _ h hcomma =>
    rw [List.append_assoc, List.singleton_append]
    exact ⟨xs ++ [x], .next h hcomma hx⟩

end Courses

namespace Grammar

open Buffer

/-! ## Runs of the loop -/

section Runs

variable {α β : Type} {b b' : Buffer} {p : Particle} {rest : List Token}

theorem bind_ok {q : Parser α} {a : α} (h : q b = .ok a b') (f : α → Parser β) :
    (q >>= f) b = f a b' := by
  show EStateM.bind q f b = _
  rw [EStateM.bind, h]

/-- Nothing hides what comes next: there is a token, or scanning does not fail. -/
def Clear (b : Buffer) : Prop := b.ahead.tokens = [] → b.ahead.failure? = none

theorem Clear.of_cons {t : Token} (h : b.ahead.tokens = t :: rest) : Clear b := by
  intro hnil
  rw [h] at hnil
  cases hnil

theorem Clear.of_consumes (h : Clear b) (hb' : b.Consumes [] b') : Clear b' := by
  intro hnil
  rw [hb'.failure]
  exact h (hb'.tokens.trans hnil)

/-- A rule that fails only where nothing has been read answers where the view is clear. -/
theorem Answers.run_clear {q : Parser α} {a : α} {ts : List Token} (h : Answers q b a rest)
    (hfails : FailsAfter (· = []) [] q b) (hcapacity : 2 ≤ b.capacity) (hclear : Clear b)
    (hb : b.ahead.tokens = ts ++ rest) : ∃ b', q b = .ok a b' ∧ b.Consumes ts b' := by
  rcases h.run hcapacity hb with hok | ⟨f, b', hrun, hf⟩
  · exact hok
  · have hnil := hfails.good_of_scanning hcapacity hrun hf
    rw [hclear hnil] at hf
    cases hf

/-- A look answers where the view is clear. -/
theorem Answers.look_clear {q : Parser α} {a : α} (h : Answers q b a b.ahead.tokens)
    (hfails : FailsAfter (· = []) [] q b) (hcapacity : 2 ≤ b.capacity) (hclear : Clear b) :
    ∃ b', q b = .ok a b' ∧ b.Consumes [] b' :=
  h.run_clear hfails hcapacity hclear rfl

theorem accept?_some {t : Token} (hcapacity : 2 ≤ b.capacity) (hb : b.ahead.tokens = t :: rest)
    (ht : t.lexeme = .particle p) : ∃ b', accept? p b = .ok (some t) b' ∧ b.Consumes [t] b' :=
  (answers_accept? hb ht).run_clear (fails_accept? p rfl) hcapacity (.of_cons hb) hb

theorem accept?_none (hcapacity : 2 ≤ b.capacity) (hclear : Clear b)
    (hp : ¬ Next p b.ahead.tokens) : ∃ b', accept? p b = .ok none b' ∧ b.Consumes [] b' :=
  (answers_accept?_none rfl hp).look_clear (fails_accept? p rfl) hcapacity hclear

theorem check_false (hcapacity : 2 ≤ b.capacity) (hclear : Clear b)
    (hp : ¬ Next p b.ahead.tokens) : ∃ b', check p 0 b = .ok false b' ∧ b.Consumes [] b' :=
  (answers_check_false rfl hp).look_clear (fails_check p rfl) hcapacity hclear

theorem advance_cons {t : Token} (hcapacity : 2 ≤ b.capacity) (hb : b.ahead.tokens = t :: rest)
    (expected : String) : ∃ b', advance expected b = .ok t b' ∧ b.Consumes [t] b' :=
  (answers_advance hb expected).run_clear (fails_advance expected rfl) hcapacity (.of_cons hb) hb

end Runs

section Loop

variable {α : Type} {I : ItemRule α} {item : Parser α} {closing : Particle} {n fuel : Nat}
  {b : Buffer} {xs : List α} {ts us rest : List Token} {x : α}

/-- What the loop needs of the rule for one item. -/
structure Takes (I : ItemRule α) (item : Parser α) (n : Nat) : Prop where
  /-- Items are taken.  Scanning that fails behind the tokens is met only if they end with the
  item. -/
  answers : ∀ {b : Buffer} {x : α} {ts rest : List Token}, I.Parsed x ts rest →
    b.ahead.tokens = ts ++ rest → b.ahead.tokens.length < n → 2 ≤ b.capacity →
    (∃ b', item b = .ok x b' ∧ b.Consumes ts b') ∨
      (rest = [] ∧ ∃ f b', item b = .error f b' ∧ b.ahead.failure? = some f)
  misfits : ∀ {b : Buffer}, b.ahead.tokens.length < n → 2 ≤ b.capacity → Clear b →
    (∀ t ∈ b.ahead.tokens.head?, ¬ I.Starts t) →
    ∃ pos b', b.Consumes (I.taken b.ahead.tokens.head?) b' ∧
      item b = .error (.grammatical ⟨I.misfit b.ahead.tokens.head? pos, anonymous⟩) b'
  /-- No item starts with a comma or with a closing delimiter. -/
  closers : ∀ {t : Token} {p : Particle}, I.Starts t → t.lexeme = .particle p →
    p ∉ Stops.closers
  ne_nil : ∀ {x : α} {ts rest : List Token}, I.Parsed x ts rest → ts ≠ []

theorem Takes.not_next (h : Takes I item n) (hx : I.Parsed x ts rest) {p : Particle}
    (hp : p ∈ Stops.closers) (us : List Token) : ¬ Next p (ts ++ us) := by
  cases ts with
  | nil => exact absurd rfl (h.ne_nil hx)
  | cons t ts =>
    intro hnext
    exact h.closers ⟨x, ts, rest, hx⟩ (next_cons.1 hnext) hp

/-- The items that are left when one is due. -/
def oneOrMore (closing : Particle) (item : Parser α) (fuel : Nat) : Parser (List α) := do
  let x ← dueItem item
  let xs ← moreItems closing item fuel
  return x :: xs

/-- An item where one is due. -/
theorem dueItem_parsed (h : Takes I item n) (hx : I.Parsed x ts rest)
    (hb : b.ahead.tokens = ts ++ rest) (hn : b.ahead.tokens.length < n)
    (hcapacity : 2 ≤ b.capacity) :
    (∃ b', dueItem item b = .ok x b' ∧ b.Consumes ts b') ∨
      (rest = [] ∧ ∃ f b', dueItem item b = .error f b' ∧ b.ahead.failure? = some f) := by
  have hcomma : ¬ Next .comma b.ahead.tokens := by
    rw [hb]
    exact h.not_next hx (by decide) rest
  have hclear : Clear b := by
    intro hnil
    rw [hb, List.append_eq_nil_iff] at hnil
    exact absurd hnil.1 (h.ne_nil hx)
  obtain ⟨b₁, hrun, hb₁⟩ := accept?_none hcapacity hclear hcomma
  have hitem : dueItem item b = item b₁ := bind_ok hrun _
  rw [hitem]
  have htokens : b₁.ahead.tokens = b.ahead.tokens := hb₁.tokens.symm
  rcases h.answers hx (htokens.trans hb) (htokens ▸ hn) (hb₁.capacity ▸ hcapacity) with
    ⟨b₂, hrun', hb₂⟩ | ⟨hrest, f, b₂, hrun', hf⟩
  · exact .inl ⟨b₂, hrun', hb₁.trans hb₂⟩
  · exact .inr ⟨hrest, f, b₂, hrun', hb₁.failure ▸ hf⟩

/-- The run from `b` goes on like a run of `p`, with the items `xs` already read from the
tokens `ts`, and with fuel for the tokens `rest`. -/
def Arrives (closing : Particle) (item : Parser α) (fuel : Nat) (b : Buffer) (xs : List α)
    (ts rest : List Token) (p : Nat → Parser (List α)) : Prop :=
  ∃ k b', b.Consumes ts b' ∧ b'.ahead.tokens = rest ∧ rest.length < k ∧
    delimited fuel closing item b = ((xs ++ ·) <$> p k) b'

/-- Scanning fails behind the tokens. -/
def Breaks (p : Parser α) (b : Buffer) : Prop :=
  ∃ f b', p b = .error f b' ∧ b.ahead.failure? = some f

theorem map_ok {β : Type} {q : Parser α} {g : α → β} {b' : Buffer} (h : q b = .ok x b') :
    (g <$> q) b = .ok (g x) b' := by
  show EStateM.map g q b = _
  rw [EStateM.map, h]

theorem map_error {β : Type} {q : Parser α} {g : α → β} {f : Failure} {b' : Buffer}
    (h : q b = .error f b') : (g <$> q) b = .error f b' := by
  show EStateM.map g q b = _
  rw [EStateM.map, h]

theorem map_of_eq {β : Type} {q r : Parser α} {g : α → β} {b' : Buffer} (h : q b = r b') :
    (g <$> q) b = (g <$> r) b' := by
  show EStateM.map g q b = EStateM.map g r b'
  rw [EStateM.map, EStateM.map, h]

/-- A comma after an item is taken before the loop looks for the closing delimiter. -/
theorem moreItems_comma (item : Parser α) {comma : Token} (hlist : closing ∈ listClosers)
    (hcapacity : 2 ≤ b.capacity) (hb : b.ahead.tokens = comma :: rest)
    (hcomma : comma.lexeme = .particle .comma) (k : Nat) :
    ∃ b', b.Consumes [comma] b' ∧ b'.ahead.tokens = rest ∧ moreItems closing item (k + 1) b =
      (do if ← check closing 0 then fail (.unexpectedComma comma true)
          else oneOrMore closing item k) b' := by
  have hne : ¬ Next closing b.ahead.tokens := by
    rw [hb]
    refine not_next_cons hcomma ?_
    rintro rfl
    exact absurd hlist (by decide)
  obtain ⟨b₁, hrun₁, hb₁⟩ := accept?_none hcapacity (.of_cons hb) hne
  have htokens : b₁.ahead.tokens = comma :: rest := hb₁.tokens.symm.trans hb
  obtain ⟨b₂, hrun₂, hb₂⟩ := accept?_some (hb₁.capacity ▸ hcapacity) htokens hcomma
  refine ⟨b₂, hb₁.trans hb₂, ?_, ?_⟩
  · exact (List.cons.inj (htokens.symm.trans hb₂.tokens)).2.symm
  · rw [moreItems, bind_ok hrun₁]
    simp only
    rw [bind_ok hrun₂]
    rfl

/-- A comma after an item makes the next one due. -/
theorem Arrives.comma {comma : Token}
    (h : Arrives closing item fuel b xs ts (comma :: rest) (moreItems closing item))
    (hcapacity : 2 ≤ b.capacity) (hlist : closing ∈ listClosers)
    (hcomma : comma.lexeme = .particle .comma) (hclosing : ¬ Next closing rest)
    (hclear : rest = [] → b.ahead.failure? = none) :
    Arrives closing item fuel b xs (ts ++ [comma]) rest (oneOrMore closing item) := by
  obtain ⟨k, b₁, hb₁, htokens, hk, hrun⟩ := h
  obtain ⟨k, rfl⟩ : ∃ k', k = k' + 1 := Nat.exists_eq_add_one.2 (by omega)
  have hcap₁ : 2 ≤ b₁.capacity := hb₁.capacity ▸ hcapacity
  obtain ⟨b₂, hb₂, htokens₂, hmore⟩ := moreItems_comma item hlist hcap₁ htokens hcomma k
  have hclear₂ : Clear b₂ := by
    intro hnil
    rw [hb₂.failure, hb₁.failure]
    exact hclear (htokens₂.symm.trans hnil)
  obtain ⟨b₃, hrun₃, hb₃⟩ :=
    check_false (p := closing) (hb₂.capacity ▸ hcap₁) hclear₂ (by rwa [htokens₂])
  rw [List.length_cons] at hk
  refine ⟨k, b₃, hb₁.trans (hb₂.trans hb₃), hb₃.tokens.symm.trans htokens₂, by omega, ?_⟩
  rw [hrun]
  exact map_of_eq (hmore.trans (bind_ok hrun₃ _))

/-- An item is read where it is due. -/
theorem Arrives.parsed
    (h : Arrives closing item fuel b xs ts (us ++ rest) (oneOrMore closing item))
    (htakes : Takes I item n) (hcapacity : 2 ≤ b.capacity) (hn : (us ++ rest).length < n)
    (hx : I.Parsed x us rest) :
    Arrives closing item fuel b (xs ++ [x]) (ts ++ us) rest (moreItems closing item) ∨
      (rest = [] ∧ Breaks (delimited fuel closing item) b) := by
  obtain ⟨k, b₁, hb₁, htokens, hk, hrun⟩ := h
  have hcap₁ : 2 ≤ b₁.capacity := hb₁.capacity ▸ hcapacity
  rcases dueItem_parsed htakes hx htokens (htokens ▸ hn) hcap₁ with
    ⟨b₂, hrun₂, hb₂⟩ | ⟨hrest, f, b₂, hrun₂, hf⟩
  · have hmore : oneOrMore closing item k b₁ = ((x :: ·) <$> moreItems closing item k) b₂ :=
      bind_ok hrun₂ _
    rw [List.length_append] at hk
    refine .inl ⟨k, b₂, hb₁.trans hb₂, ?_, by omega, ?_⟩
    · exact (List.append_cancel_left (htokens.symm.trans hb₂.tokens)).symm
    · rw [hrun, map_of_eq hmore, Functor.map_map]
      simp
  · refine .inr ⟨hrest, f, b₂, ?_, hb₁.failure ▸ hf⟩
    rw [hrun]
    exact map_error (bind_error hrun₂ _)

/-- The outcome of the rule that the run arrives at is the outcome of the run. -/
theorem Arrives.run {p : Nat → Parser (List α)} (h : Arrives closing item fuel b xs ts rest p)
    (hcapacity : 2 ≤ b.capacity) :
    ∃ k b₁, b.Consumes ts b₁ ∧ b₁.ahead.tokens = rest ∧ 2 ≤ b₁.capacity ∧
      (∀ zs b', p (k + 1) b₁ = .ok zs b' → delimited fuel closing item b = .ok (xs ++ zs) b') ∧
      ∀ f b', p (k + 1) b₁ = .error f b' → delimited fuel closing item b = .error f b' := by
  obtain ⟨k, b₁, hb₁, htokens, hk, hrun⟩ := h
  obtain ⟨k, rfl⟩ : ∃ k', k = k' + 1 := Nat.exists_eq_add_one.2 (by omega)
  exact ⟨k, b₁, hb₁, htokens, hb₁.capacity ▸ hcapacity, fun _ _ hp => hrun.trans (map_ok hp),
    fun _ _ hp => hrun.trans (map_error hp)⟩

end Loop

/-! ## Expressions as items -/

section Expressions

variable {b : Buffer}

theorem starts_of_begun {convert : Converter} {k : Nat} {t : Token} (h : Begun convert k [t]) :
    ItemRule.expression.Starts t := by
  obtain ⟨us, -, e, he, -⟩ := h
  exact ⟨e, us, [], he.parsed⟩

/-- An expression starts with a number, with a name, or with a particle that opens one. -/
theorem starts_expression_iff {t : Token} : ItemRule.expression.Starts t ↔
    (∃ v, t.lexeme = .number v) ∨ (∃ s, t.lexeme = .name s) ∨
      ∃ p ∈ openers, t.lexeme = .particle p := by
  constructor
  · rintro ⟨e, ts, rest, h⟩
    obtain ⟨u, us, hcons, hu⟩ := h.reads.starts h.stratified
    cases hcons
    exact hu
  · rintro (⟨v, hv⟩ | ⟨s, hs⟩ | ⟨p, hopener, hp⟩)
    · have hnumber : Expr.WellRead (.number v t.pos) [t] := ⟨.number hv, .number v t.pos⟩
      exact ⟨_, [], [], hnumber.parsed⟩
    · exact starts_of_begun (.of_whole (isExpr_name hs) : Begun NamedType.integer.converter _ _)
    · have hnil : ∀ {k}, k ≤ Expr.primaryRank → Begun NamedType.integer.converter k [] := .nil
      simp only [openers, List.mem_cons, List.not_mem_nil, or_false] at hopener
      rcases hopener with rfl | rfl | rfl | rfl
      · exact starts_of_begun (.group hp (hnil (Nat.zero_le _)))
      · exact starts_of_begun (.list hp Separated.nil.extends_close :
          Begun NamedType.integer.converter _ _)
      · exact starts_of_begun (.unary hp (by decide) (hnil (by decide)))
      · exact starts_of_begun (.unary hp (by decide) (hnil (by decide)))

/-- Where no operator comes first, an expression fails as the tightest rule does. -/
theorem expression_error {fuel : Nat} {b₁ b₂ : Buffer} {f : Failure}
    (hrun : operator? unaryOperators b = .ok none b₁)
    (hprimary : primary (fuel + 1) (expression fuel) b₁ = .error f b₂) :
    expression (fuel + 1) b = .error f b₂ := by
  have hunary : unary (primary (fuel + 1) (expression fuel)) (fuel + 1) b = .error f b₂ :=
    (bind_ok hrun _).trans hprimary
  -- Each tier fails with its first operand.
  exact bind_error (bind_error (bind_error (bind_error (bind_error (bind_error hunary _) _) _) _)
    _) _

end Expressions

/-! ## Parameters as items -/

section Endings

variable {α : Type} {I : ItemRule α} {item : Parser α} {closing : Particle} {n fuel : Nat}
  {b : Buffer}

end Endings

end Grammar

end ExprFront
