import ExprFront.Proofs.LongestMatch
import ExprFront.Proofs.Readback

/-!
# Dumps of tokens

The dump of a token shows its class, its text between quotes, the value of a numeral, and its
position.  Texts of comments may hold anything but a line break: quotes, backslashes, controls, or
what looks like a dump.  This module shows that dumps stay on one line all the same, and that the
token can be told from its dump.

* `Text.readChar?` reads one character of a quoted text back (`Text.readChar?_escapeChar`).  So
  quoted text can be told from whatever follows it (`Text.quotedChars_append_inj`).
* `Text.Prints` says that all characters of a text print, as they do between quotes
  (`Text.prints_quotedChars`) and in the values of exact types (`Value.Exact.prints_shown`).
* `Lexeme.word` is the word at the front of a dump.  The word and the text of a token determine its
  lexeme (`Lexeme.ofDump?`), as long as one converter reads its numerals.

Main result: `dump_unambiguous`.
-/

namespace ExprFront

open Number

/-! ## Reading quoted text -/

namespace Text

/-- The number that hexadecimal digits denote. -/
def hexValue (cs : List Char) : Nat :=
  cs.foldl (fun n c => 16 * n + "0123456789abcdef".toList.idxOf c) 0

theorem hexValue_hexDigits (width n : Nat) : hexValue (hexDigits width n) = n % 16 ^ width := by
  have hdigit : ∀ d < 16, "0123456789abcdef".toList.idxOf (Nat.digitChar d) = d := by decide
  induction width generalizing n with
  | zero => exact (Nat.mod_one n).symm
  | succ width ih =>
    have happend : hexValue (hexDigits (width + 1) n) =
        16 * hexValue (hexDigits width (n / 16)) +
          "0123456789abcdef".toList.idxOf (Nat.digitChar (n % 16)) := by
      rw [hexDigits, hexValue, List.foldl_append]
      rfl
    rw [happend, ih, hdigit _ (Nat.mod_lt n (by decide)), Nat.pow_succ, Nat.mul_comm (16 ^ width),
      Nat.mod_mul, Nat.add_comm]

theorem length_hexDigits (width n : Nat) : (hexDigits width n).length = width := by
  induction width generalizing n with
  | zero => rfl
  | succ width ih => rw [hexDigits, List.length_append, ih, List.length_singleton]

theorem mem_hexDigits {width n : Nat} {c : Char} (h : c ∈ hexDigits width n) :
    ∃ d < 16, c = Nat.digitChar d := by
  induction width generalizing n with
  | zero => cases h
  | succ width ih =>
    rcases List.mem_append.1 h with h | h
    · exact ih h
    · exact ⟨n % 16, Nat.mod_lt n (by decide), List.mem_singleton.1 h⟩

/-- How many hexadecimal digits follow the letter of an escape. -/
def escapeWidth? : Char → Option Nat
  | 'x' => some 2
  | 'u' => some 4
  | 'U' => some 8
  | _ => none

/-- The character that a letter stands for after a backslash. -/
def escapedLetter : Char → Char
  | 't' => '\t'
  | 'n' => '\n'
  | 'r' => '\r'
  | c => c

/-- The first character of a text that is written with escapes, and what is left. -/
def readChar? : List Char → Option (Char × List Char)
  | [] => none
  | '\\' :: c :: rest =>
    match escapeWidth? c with
    | some width => some (Char.ofNat (hexValue (rest.take width)), rest.drop width)
    | none => some (escapedLetter c, rest)
  | c :: rest => some (c, rest)

theorem readChar?_of_ne {c : Char} (hc : c ≠ '\\') (rest : List Char) :
    readChar? (c :: rest) = some (c, rest) := by
  rw [readChar?]
  rintro d ds rfl
  exact absurd rfl hc

theorem readChar?_hexDigits {letter : Char} {width : Nat}
    (hletter : escapeWidth? letter = some width) {c : Char} (hc : c.toNat < 16 ^ width) (rest : List Char) :
    readChar? ('\\' :: letter :: hexDigits width c.toNat ++ rest) = some (c, rest) := by
  have hlength := length_hexDigits width c.toNat
  have htake : (hexDigits width c.toNat ++ rest).take width = hexDigits width c.toNat := by
    rw [List.take_append_of_le_length hlength.ge, List.take_of_length_le hlength.le]
  have hdrop : (hexDigits width c.toNat ++ rest).drop width = rest := List.drop_left' hlength
  rw [List.cons_append, List.cons_append, readChar?, hletter]
  simp only [htake, hdrop, hexValue_hexDigits, Nat.mod_eq_of_lt hc, Char.ofNat_toNat]

/-- The forms in which a character is written: itself, a letter after a backslash, or its code. -/
inductive WrittenAs (quote c : Char) : List Char → Prop where
  | plain (hquote : c ≠ quote) (hbackslash : c ≠ '\\') (hprints : isPrintable c = true) :
      WrittenAs quote c [c]
  | letter {l : Char} (hwidth : escapeWidth? l = none) (hc : escapedLetter l = c)
      (hprints : isPrintable l = true) : WrittenAs quote c ['\\', l]
  | code {l : Char} {width : Nat} (hwidth : escapeWidth? l = some width)
      (hc : c.toNat < 16 ^ width) (hprints : isPrintable l = true) :
      WrittenAs quote c ('\\' :: l :: hexDigits width c.toNat)

/-- One of the two quotes. -/
def IsQuote (quote : Char) : Prop := quote = '\x27' ∨ quote = '\x22'

theorem isQuote_quoteFor (cs : List Char) : IsQuote (quoteFor cs) := by
  rw [quoteFor]
  split
  · exact .inr rfl
  · exact .inl rfl

section Quote

variable {quote : Char} (hquote : IsQuote quote)

include hquote

theorem writtenAs_escapeChar (c : Char) : WrittenAs quote c (escapeChar quote c) := by
  rw [escapeChar]
  split
  · next h =>
    have hc : c = '\x27' ∨ c = '\x22' ∨ c = '\\' := by
      rcases h with rfl | rfl
      · rcases hquote with rfl | rfl
        · exact .inl rfl
        · exact .inr (.inl rfl)
      · exact .inr (.inr rfl)
    rcases hc with rfl | rfl | rfl <;> exact .letter rfl rfl (by decide)
  · next hplain =>
    obtain ⟨hne, hbackslash⟩ := not_or.1 hplain
    split_ifs with htab hline hreturn hprints hbyte hshort
    · exact .letter rfl htab.symm (by decide)
    · exact .letter rfl hline.symm (by decide)
    · exact .letter rfl hreturn.symm (by decide)
    · exact .plain hne hbackslash hprints
    · exact .code rfl hbyte (by decide)
    · exact .code rfl hshort (by decide)
    · have hlt : c.toNat < 16 ^ 8 := c.val.toNat_lt
      exact .code rfl hlt (by decide)

/-- A character is read back from its written form. -/
theorem readChar?_escapeChar (c : Char) (rest : List Char) :
    readChar? (escapeChar quote c ++ rest) = some (c, rest) := by
  have hwritten := writtenAs_escapeChar hquote c
  generalize escapeChar quote c = written at hwritten
  cases hwritten with
  | plain _ hbackslash _ => exact readChar?_of_ne hbackslash rest
  | @letter l hwidth hc _ =>
    have hread : readChar? ('\\' :: l :: rest) = some (escapedLetter l, rest) := by
      rw [readChar?, hwidth]
    rw [← hc]
    exact hread
  | code hwidth hc _ => exact readChar?_hexDigits hwidth hc rest

/-- No written form begins with the quote. -/
theorem escapeChar_cons (c : Char) : ∃ d ds, escapeChar quote c = d :: ds ∧ d ≠ quote := by
  have hbackslash : '\\' ≠ quote := by rcases hquote with rfl | rfl <;> decide
  have hwritten := writtenAs_escapeChar hquote c
  generalize escapeChar quote c = written at hwritten
  cases hwritten with
  | plain hne _ _ => exact ⟨c, [], rfl, hne⟩
  | @letter l _ _ _ => exact ⟨_, [l], rfl, hbackslash⟩
  | @code l width _ _ _ => exact ⟨_, l :: hexDigits width c.toNat, rfl, hbackslash⟩

theorem escaped_append_inj {cs cs' rest rest' : List Char}
    (h : cs.flatMap (escapeChar quote) ++ quote :: rest =
      cs'.flatMap (escapeChar quote) ++ quote :: rest') : cs = cs' ∧ rest = rest' := by
  induction cs generalizing cs' with
  | nil =>
    cases cs' with
    | nil => exact ⟨rfl, (List.cons.inj h).2⟩
    | cons c' cs' =>
      obtain ⟨d, ds, hd, hne⟩ := escapeChar_cons hquote c'
      rw [List.flatMap_cons, hd] at h
      exact absurd (List.cons.inj h).1.symm hne
  | cons c cs ih =>
    cases cs' with
    | nil =>
      obtain ⟨d, ds, hd, hne⟩ := escapeChar_cons hquote c
      rw [List.flatMap_cons, hd] at h
      exact absurd (List.cons.inj h).1 hne
    | cons c' cs' =>
      rw [List.flatMap_cons, List.flatMap_cons, List.append_assoc, List.append_assoc] at h
      have hread := congrArg readChar? h
      rw [readChar?_escapeChar hquote, readChar?_escapeChar hquote] at hread
      obtain ⟨rfl, htail⟩ := Prod.mk.inj (Option.some.inj hread)
      obtain ⟨rfl, hrest⟩ := ih htail
      exact ⟨rfl, hrest⟩

end Quote

/-- Quoted text can be told from what follows it. -/
theorem quotedChars_append_inj {cs cs' rest rest' : List Char}
    (h : quotedChars cs ++ rest = quotedChars cs' ++ rest') : cs = cs' ∧ rest = rest' := by
  rw [quotedChars, quotedChars, List.cons_append, List.cons_append, List.append_assoc,
    List.append_assoc] at h
  obtain ⟨hquote, htail⟩ := List.cons.inj h
  rw [← hquote] at htail
  exact escaped_append_inj (isQuote_quoteFor cs) htail

/-! ## What prints -/

/-- All characters of the text print. -/
def Prints (cs : List Char) : Prop := ∀ c ∈ cs, isPrintable c = true

theorem Prints.append {cs cs' : List Char} (h : Prints cs) (h' : Prints cs') :
    Prints (cs ++ cs') :=
  List.forall_mem_append.2 ⟨h, h'⟩

theorem Prints.cons {c : Char} {cs : List Char} (hc : isPrintable c = true) (h : Prints cs) :
    Prints (c :: cs) :=
  List.forall_mem_cons.2 ⟨hc, h⟩

theorem prints_of_all {cs : List Char} (h : cs.all isPrintable = true) : Prints cs :=
  List.all_eq_true.1 h

/-- A line break does not print. -/
theorem Prints.newline_notMem {cs : List Char} (h : Prints cs) : '\n' ∉ cs :=
  fun hmem => absurd (h _ hmem) (by decide)

theorem prints_escapeChar {quote : Char} (hquote : IsQuote quote) (c : Char) :
    Prints (escapeChar quote c) := by
  have hdigit : ∀ d < 16, isPrintable (Nat.digitChar d) = true := by decide
  have hwritten := writtenAs_escapeChar hquote c
  generalize escapeChar quote c = written at hwritten
  cases hwritten with
  | plain _ _ hprints => exact .cons hprints nofun
  | letter _ _ hprints => exact .cons (by decide) (.cons hprints nofun)
  | code _ _ hprints =>
    refine .cons (by decide) (.cons hprints fun x hx => ?_)
    obtain ⟨d, hd, rfl⟩ := mem_hexDigits hx
    exact hdigit d hd

/-- Between quotes everything prints. -/
theorem prints_quotedChars (cs : List Char) : Prints (quotedChars cs) := by
  have hquote : isPrintable (quoteFor cs) = true := by
    rcases isQuote_quoteFor cs with h | h <;> rw [h] <;> decide
  have hbody : Prints (cs.flatMap (escapeChar (quoteFor cs))) := by
    intro x hx
    obtain ⟨c, -, hx⟩ := List.mem_flatMap.1 hx
    exact prints_escapeChar (isQuote_quoteFor cs) c x hx
  exact (Prints.cons hquote hbody).append (.cons hquote nofun)

/-- What numbers are written with prints. -/
theorem prints_of_plain {cs : List Char} (h : Plain cs) : Prints cs := by
  intro c hc
  rcases Bool.or_eq_true_iff.1 (h c hc) with hdigit | hother
  · exact of_isDigit (P := fun c => isPrintable c = true) (by decide) hdigit
  · have hall : "+-.E/".toList.all isPrintable = true := by decide
    exact List.all_eq_true.1 hall c (List.contains_iff_mem.1 hother)

end Text

open Text

theorem plain_toString (n : Int) : Plain (toString n).toList := by
  rw [← Numeral.spelled_ofInt, String.toList_ofList]
  exact (Numeral.wellFormed_ofInt n).plain

theorem IntType.prints_name (t : IntType) : Prints t.name.toList := by
  obtain ⟨signed, width⟩ := t
  apply prints_of_all
  cases signed <;> cases width <;> decide

/-- The value of an exact type prints, with the name of its type. -/
theorem Value.Exact.prints_shown {v : Value} (h : v.Exact) : Prints v.shown.toList := by
  have hinteger : ∀ n : Int, Prints (toString n).toList := fun n =>
    prints_of_plain (plain_toString n)
  cases h with
  | integer n => exact hinteger n
  | fixedInt w n =>
    have hshown : (Value.fixedInt w n).shown.toList =
        "np.".toList ++ w.name.toList ++ "(".toList ++ (toString n).toList ++ ")".toList := by
      simp only [shown, text, String.toList_append]
    rw [hshown]
    exact ((((prints_of_all (by decide)).append w.prints_name).append
      (prints_of_all (by decide))).append (hinteger n)).append (prints_of_all (by decide))
  | decimal negative m e =>
    obtain ⟨n, hn, -, -, -, htext⟩ := Decimal.exists_numeral negative m e
    have hshown : (Value.decimal (.finite negative m e)).shown.toList =
        "Decimal('".toList ++ n.spelled ++ "')".toList := by
      simp only [shown, htext, String.toList_append, String.toList_ofList]
    rw [hshown]
    exact ((prints_of_all (by decide)).append (prints_of_plain hn.plain)).append
      (prints_of_all (by decide))
  | fraction q =>
    have hshown : (Value.fraction q).shown.toList = "Fraction(".toList ++ (toString q.num).toList ++
        ", ".toList ++ (toString (q.den : Int)).toList ++ ")".toList := by
      simp only [shown, String.toList_append]
      rfl
    rw [hshown]
    exact ((((prints_of_all (by decide)).append (hinteger _)).append
      (prints_of_all (by decide))).append (hinteger _)).append (prints_of_all (by decide))

/-! ## Positions -/

/-- What stands before the first character outside a class can be told from the rest. -/
theorem append_inj_of_forall {p : Char → Bool} {cs cs' rest rest' : List Char} {c c' : Char}
    (hcs : ∀ x ∈ cs, p x = true) (hcs' : ∀ x ∈ cs', p x = true) (hc : p c = false)
    (hc' : p c' = false) (h : cs ++ c :: rest = cs' ++ c' :: rest') :
    cs = cs' ∧ c :: rest = c' :: rest' := by
  have htake : ∀ {cs rest : List Char} {c : Char}, (∀ x ∈ cs, p x = true) → p c = false →
      (cs ++ c :: rest).takeWhile p = cs := by
    intro cs rest c hcs hc
    rw [List.takeWhile_append_of_pos hcs, List.takeWhile_cons_of_neg (by simp [hc]),
      List.append_nil]
  have heq : cs = cs' := by rw [← htake hcs hc, h, htake hcs' hc']
  subst heq
  exact ⟨rfl, List.append_cancel_left h⟩

theorem toString_int_inj {m n : Int} (h : (toString m).toList = (toString n).toList) : m = n := by
  rw [← Numeral.spelled_ofInt, ← Numeral.spelled_ofInt, String.toList_ofList,
    String.toList_ofList] at h
  have hread := Numeral.read?_spelled (Numeral.wellFormed_ofInt m)
  rw [h, Numeral.read?_spelled (Numeral.wellFormed_ofInt n)] at hread
  have hnumeral : Numeral.ofInt n = Numeral.ofInt m := Option.some.inj hread
  have hvalue : ∀ k : Int,
      signed (Numeral.ofInt k).negative (digitsValue (Numeral.ofInt k).whole) = k := by
    intro k
    rw [Numeral.ofInt, digitsValue_digitsOf, signed_natAbs]
  rw [← hvalue m, ← hnumeral, hvalue]

/-- A position can be told from its text. -/
theorem Position.text_inj {p q : Position} (h : p.text.toList = q.text.toList) : p = q := by
  have htext : ∀ p : Position, p.text.toList =
      (toString p.row).toList ++ ':' :: (toString p.col).toList := by
    intro p
    simp [text]
  rw [htext, htext] at h
  obtain ⟨hrow, hcol⟩ := append_inj_of_forall (plain_toString p.row) (plain_toString q.row)
    (by decide) (by decide) h
  have hrow : p.row = q.row := toString_int_inj hrow
  have hcol : p.col = q.col := toString_int_inj (List.cons.inj hcol).2
  cases p
  cases q
  cases hrow
  cases hcol
  rfl

theorem Position.prints_text (p : Position) : Prints p.text.toList := by
  rw [text, String.toList_append, String.toList_append]
  exact ((prints_of_plain (plain_toString p.row)).append (prints_of_all (by decide))).append
    (prints_of_plain (plain_toString p.col))

/-! ## Tokens -/

/-- The word at the front of a dump. -/
def Lexeme.word : Lexeme → String
  | number _ => "NUMBER"
  | name _ => "IDENTIFIER"
  | particle p => p.name
  | skip => "SKIP"
  | endOfInput => "EOF"

/-- What a dump shows of a lexeme besides its text: the value of a numeral. -/
def Lexeme.note : Lexeme → List Char
  | number v => " -> ".toList ++ v.shown.toList
  | _ => []

/-- The lexeme of a dump with the word and the text. -/
def Lexeme.ofDump? (convert : Converter) (word text : String) : Option Lexeme :=
  if word = "NUMBER" then (convert text).toOption.map .number
  else if word = "IDENTIFIER" then some (.name text)
  else if word = "SKIP" then some .skip
  else if word = "EOF" then some .endOfInput
  else (Particle.all.find? (·.name = word)).map .particle

/-- The lexeme of a scanned fragment follows from its word and its text. -/
theorem Shape.ofDump?_lexeme {convert : Converter} {text : String} {shape : Shape} {l : Lexeme}
    (h : shape.lexeme convert text = .ok l) : Lexeme.ofDump? convert l.word text = some l := by
  cases shape with
  | lineBreak | comment =>
    cases h
    rfl
  | word =>
    cases h
    rfl
  | particle p =>
    cases h
    cases p <;> rfl
  | numeral =>
    obtain ⟨v, hconvert, rfl⟩ := exists_of_lexeme_numeral h
    rw [Lexeme.ofDump?, Lexeme.word, if_pos rfl, hconvert]
    rfl

/-- May the character stand in the word at the front of a dump? -/
def isDumpWordChar (c : Char) : Bool := c.isUpper || c == '_'

theorem Lexeme.word_spec (l : Lexeme) :
    (∀ c ∈ l.word.toList, isDumpWordChar c = true) ∧ Prints l.word.toList := by
  have hall : l.word.toList.all (fun c => isDumpWordChar c && isPrintable c) = true := by
    cases l with
    | number v =>
      show "NUMBER".toList.all _ = true
      decide
    | name s =>
      show "IDENTIFIER".toList.all _ = true
      decide
    | particle p => cases p <;> decide
    | skip | endOfInput => decide
  have hboth := fun c hc => Bool.and_eq_true_iff.1 (List.all_eq_true.1 hall c hc)
  exact ⟨fun c hc => (hboth c hc).1, fun c hc => (hboth c hc).2⟩

theorem Shape.lexeme_number {convert : Converter} {text : String} {shape : Shape} {v : Value}
    (h : shape.lexeme convert text = .ok (.number v)) :
    shape = .numeral ∧ convert text = .ok v := by
  cases shape with
  | lineBreak | comment | word | particle => cases h
  | numeral =>
    obtain ⟨w, hconvert, hw⟩ := exists_of_lexeme_numeral h
    cases hw
    exact ⟨rfl, hconvert⟩

/-- The tokens that scanning with a converter gives. -/
inductive Token.Scanned (convert : Converter) : Token → Prop where
  | fragment {shape : Shape} {text : List Char} {l : Lexeme} (hspells : shape.Spells text)
      (hlexeme : shape.lexeme convert (String.ofList text) = .ok l) (pos : Position) :
      Scanned convert ⟨l, pos, String.ofList text⟩
  | finish (pos : Position) : Scanned convert ⟨.endOfInput, pos, ""⟩

theorem Token.scanned_of_scan {convert : Converter} {filename : String} {code : List Char}
    {pos : Position} {s : Scan} (h : scan convert filename code pos = .ok s) :
    s.token.Scanned convert := by
  rcases scan_cases h with ⟨-, rfl⟩ | ⟨shape, text, l, htake, hlexeme, rfl⟩
  · exact .finish pos
  · exact .fragment (Fragment.spells_of_take? htake) hlexeme _

/-- The dump of a scanned fragment, part by part. -/
theorem Shape.toList_dump {convert : Converter} {text : String} {shape : Shape} {l : Lexeme}
    (h : shape.lexeme convert text = .ok l) (pos : Position) :
    (Token.mk l pos text).dump.toList = l.word.toList ++
      '(' :: (quotedChars text.toList ++ (l.note ++ ')' :: '@' :: pos.text.toList)) := by
  have hquoted : (quoted text).toList = quotedChars text.toList := String.toList_ofList
  cases shape with
  | lineBreak | comment | word | particle p =>
    cases h
    simp [Token.dump, Lexeme.word, Lexeme.note, hquoted]
  | numeral =>
    obtain ⟨v, -, rfl⟩ := exists_of_lexeme_numeral h
    simp [Token.dump, Lexeme.word, Lexeme.note, hquoted]

theorem Token.toList_dump_end (pos : Position) (text : String) :
    (Token.mk .endOfInput pos text).dump.toList =
      Lexeme.endOfInput.word.toList ++ '@' :: pos.text.toList := by
  simp [Token.dump, Lexeme.word]

/-- Tokens that are scanned with one converter can be told from their dumps. -/
theorem Token.Scanned.dump_inj {convert : Converter} {t u : Token} (ht : t.Scanned convert)
    (hu : u.Scanned convert) (h : t.dump = u.dump) : t = u := by
  have hchars := congrArg String.toList h
  -- The word ends before the bracket, or before the sign of the position.
  have hwords : ∀ {l l' : Lexeme} {c c' : Char} {rest rest' : List Char}, isDumpWordChar c = false →
      isDumpWordChar c' = false → l.word.toList ++ c :: rest = l'.word.toList ++ c' :: rest' →
      l.word = l'.word ∧ c = c' ∧ rest = rest' := by
    intro l l' c c' rest rest' hc hc' heq
    obtain ⟨hword, htail⟩ := append_inj_of_forall l.word_spec.1 l'.word_spec.1 hc hc' heq
    exact ⟨String.toList_injective hword, List.cons.inj htail⟩
  cases ht with
  | finish pos =>
    rw [toList_dump_end] at hchars
    cases hu with
    | finish pos' =>
      rw [toList_dump_end] at hchars
      rw [Position.text_inj (hwords rfl rfl hchars).2.2]
    | fragment _ hlexeme' pos' =>
      rw [Shape.toList_dump hlexeme'] at hchars
      exact absurd (hwords rfl rfl hchars).2.1 (by decide)
  | fragment _ hlexeme pos =>
    rw [Shape.toList_dump hlexeme] at hchars
    cases hu with
    | finish pos' =>
      rw [toList_dump_end] at hchars
      exact absurd (hwords rfl rfl hchars).2.1 (by decide)
    | fragment _ hlexeme' pos' =>
      rw [Shape.toList_dump hlexeme'] at hchars
      obtain ⟨hword, -, hquoted⟩ := hwords rfl rfl hchars
      obtain ⟨htext, hrest⟩ := quotedChars_append_inj hquoted
      have htext := String.toList_injective htext
      have hread := Shape.ofDump?_lexeme hlexeme
      rw [hword, htext, Shape.ofDump?_lexeme hlexeme'] at hread
      cases Option.some.inj hread
      have hpos := List.append_cancel_left hrest
      rw [htext, Position.text_inj (List.cons.inj (List.cons.inj hpos).2).2]

/-! ## Exact types -/

/-- What an exact type makes of a short literal can be written. -/
theorem NamedType.IsExact.isPrintable {t : NamedType} (ht : t.IsExact) {text : List Char}
    (htext : IsNumeral text) (hshort : text.countP Char.isDigit < maxDigits) {v : Value}
    (h : t.converter (String.ofList text) = .ok v) : v.isPrintable = true := by
  obtain ⟨value, range, n, hintegral, -⟩ | ⟨-, d, -, rfl⟩ | ⟨rfl, q, rfl⟩ := ht.cases htext h
  · obtain ⟨n, hread, -, rfl⟩ := hintegral.exists_of_converter h
    obtain ⟨-, rfl, -⟩ | ⟨w, -, rfl, -⟩ := hintegral.cases
    · rw [Value.isPrintable, Value.shortInteger, decide_eq_true_iff]
      exact Converter.readInteger_lt hread
    · rfl
  · rfl
  · obtain ⟨hwellFormed, hspelled⟩ := Numeral.ofLiteral_spelled htext
    rw [countP_isDigit] at hshort
    have hread := Converter.readFraction_spelled hwellFormed
    rw [Converter.fractionOfNumeral_literal rfl (by omega) (by omega), hspelled] at hread
    cases h.symm.trans (Converter.fraction_of_read hread)
    exact Value.isPrintable_literal hwellFormed hshort

/-- The dump of a token with numerals of an exact type prints. -/
theorem Token.Scanned.prints_dump {t : NamedType} (ht : t.IsExact) {token : Token}
    (h : token.Scanned t.converter) : Prints token.dump.toList := by
  cases h with
  | finish pos =>
    rw [toList_dump_end]
    exact (Lexeme.word_spec _).2.append (.cons (by decide) pos.prints_text)
  | @fragment shape text l hspells hlexeme pos =>
    have hnote : Prints l.note := by
      cases l with
      | name | particle | skip | endOfInput => exact nofun
      | number v =>
        obtain ⟨rfl, hconvert⟩ := Shape.lexeme_number hlexeme
        exact (prints_of_all (by decide)).append
          (NamedType.exact_of_converter ht hspells hconvert).prints_shown
    have hplace : Prints (')' :: '@' :: pos.text.toList) :=
      .cons (by decide) (.cons (by decide) pos.prints_text)
    rw [Shape.toList_dump hlexeme]
    exact (Lexeme.word_spec _).2.append
      (.cons (by decide) ((prints_quotedChars _).append (hnote.append hplace)))

/-- The token is scanned somewhere with numerals of the type, and is no overlong literal. -/
structure NamedType.Gives (t : NamedType) (token : Token) : Prop where
  scanned : ∃ filename code pos s, scan t.converter filename code pos = .ok s ∧ s.token = token
  short : ∀ v, token.lexeme = .number v → token.text.toList.countP Char.isDigit < maxDigits

theorem NamedType.Gives.isScanned {t : NamedType} {token : Token} (h : t.Gives token) :
    token.Scanned t.converter := by
  obtain ⟨filename, code, pos, s, hscan, rfl⟩ := h.scanned
  exact Token.scanned_of_scan hscan

/-- Every token of a source is scanned somewhere. -/
theorem Cursor.exists_scan_of_tokens {includeSkips : Bool} {c c' : Cursor} {ts : List Token}
    (h : c.tokens includeSkips = .ok ts c') :
    ∀ t ∈ ts, ∃ code pos s, scan c.convert c.filename code pos = .ok s ∧ s.token = t := by
  have hstep : ∀ {c d : Cursor} {t : Token}, c.next = .ok (t, d) →
      ∃ s, scan c.convert c.filename c.rest c.pos = .ok s ∧ s.token = t := by
    intro c d t hnext
    rw [next] at hnext
    split at hnext
    · cases hnext
    · next s hs =>
      cases hnext
      exact ⟨s, hs, rfl⟩
  fun_induction tokens includeSkips c generalizing ts c' with
  | case1 c e hnext => cases h
  | case2 c t d hnext hend =>
    cases h
    intro u hu
    rw [List.mem_singleton.1 hu]
    exact ⟨_, _, hstep hnext⟩
  | case3 c t d hnext hend e d' htail ih => cases h
  | case4 c t d hnext hend us d' htail ih =>
    cases h
    intro u hu
    have hcases : u = t ∨ u ∈ us := by
      split at hu
      · exact .inr hu
      · exact List.mem_cons.1 hu
    rcases hcases with rfl | hu
    · exact ⟨_, _, hstep hnext⟩
    · rw [← convert_next hnext, ← filename_next hnext]
      exact ih htail u hu

theorem NamedType.gives_of_tokenize {t : NamedType} {source filename : String}
    {includeSkips : Bool} {ts : List Token}
    (h : tokenize source filename t.converter includeSkips = .ok ts) {token : Token}
    (hmem : token ∈ ts)
    (hshort : ∀ v, token.lexeme = .number v → token.text.toList.countP Char.isDigit < maxDigits) :
    t.Gives token := by
  rw [tokenize] at h
  split at h
  · cases h
  · next us c hrun =>
    cases h
    exact ⟨⟨filename, Cursor.exists_scan_of_tokens hrun token hmem⟩, hshort⟩

/-- A token that is scanned with numerals of an exact type can be written, unless it is an overlong
literal.  Its dump is one line, on which everything prints, and no other token has the same
dump. -/
theorem dump_unambiguous {t : NamedType} (ht : t.IsExact) {token token' : Token}
    (h : t.Gives token) (h' : t.Gives token') :
    token.isPrintable = true ∧ (∀ c ∈ token.dump.toList, Text.isPrintable c = true) ∧
      '\n' ∉ token.dump.toList ∧ (token.dump = token'.dump → token = token') := by
  have hprints := h.isScanned.prints_dump ht
  refine ⟨?_, hprints, hprints.newline_notMem, h.isScanned.dump_inj h'.isScanned⟩
  have hshort := h.short
  cases h.isScanned with
  | finish pos => rfl
  | @fragment shape text l hspells hlexeme pos =>
    cases l with
    | name | particle | skip | endOfInput => rfl
    | number v =>
      obtain ⟨rfl, hconvert⟩ := Shape.lexeme_number hlexeme
      have hdigits := hshort v rfl
      rw [String.toList_ofList] at hdigits
      exact ht.isPrintable hspells hdigits hconvert

/-- A comment with a tab, both quotes, a line separator and the end of a dump. -/
def oddComment : Token := ⟨.skip, ⟨0, 1⟩, "//\t'\"\u2028')@7:7"⟩

/-- A comment that holds the first one as dumps show it. -/
def spelledComment : Token := ⟨.skip, ⟨0, 1⟩, "//\\t\\'\"\\u2028\\')@7:7"⟩

theorem dump_unambiguous_comments :
    NamedType.fraction.IsExact ∧ NamedType.fraction.Gives oddComment ∧
      NamedType.fraction.Gives spelledComment ∧
      oddComment.dump = "SKIP('//\\t\\'\"\\u2028\\')@7:7')@0:1" ∧
      (∀ c ∈ oddComment.dump.toList, Text.isPrintable c = true) ∧ '\n' ∉ oddComment.dump.toList ∧
      oddComment.dump ≠ spelledComment.dump := by
  have hscan : tokenize (" " ++ oddComment.text ++ "\n0.5") anonymous NamedType.fraction.converter
      true = .ok [oddComment, ⟨.skip, ⟨0, 13⟩, "\n"⟩, ⟨.number (.fraction (1 / 2)), ⟨1, 0⟩, "0.5"⟩,
        ⟨.endOfInput, ⟨1, 3⟩, ""⟩] := by
    decide +kernel
  have hscan' : tokenize ("\t" ++ spelledComment.text) anonymous NamedType.fraction.converter
      true = .ok [spelledComment, ⟨.endOfInput, ⟨0, 21⟩, ""⟩] := by
    decide +kernel
  have hodd : NamedType.fraction.Gives oddComment :=
    NamedType.gives_of_tokenize hscan List.mem_cons_self nofun
  have hspelled : NamedType.fraction.Gives spelledComment :=
    NamedType.gives_of_tokenize hscan' List.mem_cons_self nofun
  obtain ⟨-, hprints, hline, hinj⟩ := dump_unambiguous (t := .fraction) trivial hodd hspelled
  refine ⟨trivial, hodd, hspelled, by decide +kernel, hprints, hline, fun h => ?_⟩
  exact absurd (hinj h) (by decide)

end ExprFront
