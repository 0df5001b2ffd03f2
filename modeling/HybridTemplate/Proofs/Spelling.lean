import HybridTemplate.Json.Basic
import Mathlib.Data.List.Chain

/-!
# The texts of a document

JSON text may be written in many ways: blanks stand between tokens, characters are escaped in several ways, and an
exponent has a mark of either case. `Document.Spelling d cs` says that the text `cs` is one way to write the document
`d`. It names neither the scanner nor the reader.

* `Glyph.Spelling`, `Numeral.Spelling`, `Token.Spelling` and `Spaced` — the grammar, from the bottom up;
* `Glyph.Spelling.feed`, `Numeral.Spelling.ofChars?` and `Token.Spelling.scan` — what reading one piece leaves behind;
* `Document.Spelling.read?` — every way to write a document reads back as this document;
* `Document.spelling_write` — what is written is one of these ways.
-/

namespace HybridTemplate.Json

/-! ## The grammar -/

/-- The ways to write an element of a string. -/
inductive Glyph.Spelling : Glyph → List Char → Prop where
  /-- A character that stands for itself. -/
  | plain {c : Char} (hquote : c ≠ '"') (hback : c ≠ '\\') (hcontrol : 0x20 ≤ c.toNat) : Spelling (.char c) [c]
  /-- An escape of one letter. -/
  | letter {l c : Char} (h : Scanner.escaped? l = some c) : Spelling (.char c) ['\\', l]
  /-- An escape of four hexadecimal digits. -/
  | unit {c₁ c₂ c₃ c₄ : Char} {d₁ d₂ d₃ d₄ : Nat} (h₁ : Scanner.hexValue? c₁ = some d₁)
      (h₂ : Scanner.hexValue? c₂ = some d₂) (h₃ : Scanner.hexValue? c₃ = some d₃)
      (h₄ : Scanner.hexValue? c₄ = some d₄) :
      Spelling (.ofUnit (4096 * d₁ + 256 * d₂ + 16 * d₃ + d₄)) ['\\', 'u', c₁, c₂, c₃, c₄]

/-- The ways to write the inside of a string. -/
inductive GlyphsSpelling : List Glyph → List Char → Prop where
  | nil : GlyphsSpelling [] []
  | cons {g : Glyph} {gs : List Glyph} {cs rest : List Char} (hg : g.Spelling cs) (hgs : GlyphsSpelling gs rest) :
      GlyphsSpelling (g :: gs) (cs ++ rest)

namespace Numeral

/-- One or more digits. -/
def Digits (ds : List Char) : Prop :=
  ds ≠ [] ∧ ∀ c ∈ ds, c.isDigit = true

/-- Digits without a zero in front of others. -/
def WholeDigits (ds : List Char) : Prop :=
  Digits ds ∧ ∀ d rest, ds ≠ '0' :: d :: rest

/-- The ways to write the sign of an exponent. -/
inductive SignSpelling : Bool → List Char → Prop where
  | minus : SignSpelling true ['-']
  | plus : SignSpelling false ['+']
  | none : SignSpelling false []

/-- The ways to write the point and what is behind it. -/
inductive FractionSpelling : List Char → List Char → Prop where
  | none : FractionSpelling [] []
  | digits {ds : List Char} (h : Digits ds) : FractionSpelling ds ('.' :: ds)

/-- The ways to write an exponent. -/
inductive ExponentSpelling : Option (Bool × List Char) → List Char → Prop where
  | none : ExponentSpelling none []
  | digits {mark : Char} {minus : Bool} {sign ds : List Char} (hmark : mark = 'e' ∨ mark = 'E')
      (hsign : SignSpelling minus sign) (h : Digits ds) : ExponentSpelling (some (minus, ds)) (mark :: sign ++ ds)

/-- The ways to write a number. -/
inductive Spelling : Numeral → List Char → Prop where
  | mk {negative : Bool} {whole fraction : List Char} {exponent : Option (Bool × List Char)} {point power : List Char}
      (hwhole : WholeDigits whole) (hpoint : FractionSpelling fraction point)
      (hpower : ExponentSpelling exponent power) :
      Spelling ⟨negative, whole, fraction, exponent⟩ ((if negative then ['-'] else []) ++ whole ++ point ++ power)

end Numeral

/-- The ways to write a token. -/
inductive Token.Spelling : Token → List Char → Prop where
  | number {n : Numeral} {cs : List Char} (h : n.Spelling cs) : Spelling (.number n) cs
  | string {gs : List Glyph} {cs : List Char} (h : GlyphsSpelling gs cs) : Spelling (.string gs) ('"' :: cs ++ ['"'])
  | openArray : Spelling .openArray ['[']
  | closeArray : Spelling .closeArray [']']
  | openObject : Spelling .openObject ['{']
  | closeObject : Spelling .closeObject ['}']
  | comma : Spelling .comma [',']
  | colon : Spelling .colon [':']
  | null : Spelling .null ['n', 'u', 'l', 'l']
  | yes : Spelling (.bool true) ['t', 'r', 'u', 'e']
  | no : Spelling (.bool false) ['f', 'a', 'l', 's', 'e']

/-- The ways to write tokens, with blanks in front of, between and behind them. -/
inductive Spaced : List Token → List Char → Prop where
  | nil : Spaced [] []
  | blank {ts : List Token} {c : Char} {cs : List Char} (hc : Scanner.isSpace c = true) (h : Spaced ts cs) :
      Spaced ts (c :: cs)
  | token {t : Token} {ts : List Token} {cs rest : List Char} (ht : t.Spelling cs) (h : Spaced ts rest) :
      Spaced (t :: ts) (cs ++ rest)

/-- `cs` is one way to write the document. -/
def Document.Spelling (d : Document) (cs : List Char) : Prop :=
  Spaced d.tokens cs

/-! ## Strings -/

namespace Glyph

/-- The scan takes an element of a string as a whole. -/
theorem Spelling.feed {g : Glyph} {cs : List Char} (h : g.Spelling cs) (tokens : List Token) (met : List Glyph) :
    cs.foldlM Scanner.feed? ⟨tokens, .string met⟩ = some ⟨tokens, .string (g :: met)⟩ := by
  cases h with
  | plain hquote hback hcontrol =>
    have hnot : ¬ _ < 0x20 := Nat.not_lt.mpr hcontrol
    simp [Scanner.feed?, hquote, hback, hnot]
  | @letter l c h =>
    have hu : l ≠ 'u' := by
      rintro rfl
      cases h
    simp [Scanner.feed?, hu, h]
  | unit h₁ h₂ h₃ h₄ =>
    simp [Scanner.feed?, h₁, h₂, h₃, h₄]

end Glyph

theorem GlyphsSpelling.feed {gs : List Glyph} {cs : List Char} (h : GlyphsSpelling gs cs) (tokens : List Token)
    (met : List Glyph) :
    cs.foldlM Scanner.feed? ⟨tokens, .string met⟩ = some ⟨tokens, .string (gs.reverse ++ met)⟩ := by
  induction h generalizing met with
  | nil => rfl
  | cons hg hgs ih =>
    rw [List.foldlM_append, hg.feed tokens met]
    simpa using ih (_ :: met)

/-! ## Numbers -/

namespace Numeral

/-- What comes next is not a digit. -/
def Stops (cs : List Char) : Prop :=
  ∀ c ∈ cs.head?, c.isDigit = false

theorem digits?_append {ds rest : List Char} (h : Digits ds) (hrest : Stops rest) :
    digits? (ds ++ rest) = some (ds, rest) := by
  have htake : (ds ++ rest).takeWhile Char.isDigit = ds := by
    rw [List.takeWhile_append_of_pos h.2]
    cases rest with
    | nil => simp
    | cons c cs => simp [hrest c rfl]
  have hdrop : (ds ++ rest).dropWhile Char.isDigit = rest := by
    rw [List.dropWhile_append_of_pos h.2]
    cases rest with
    | nil => rfl
    | cons c cs => simp [hrest c rfl]
  unfold digits?
  rw [htake, hdrop]
  cases ds with
  | nil => exact absurd rfl h.1
  | cons d ds => rfl

theorem readWhole?_append {ds rest : List Char} (h : WholeDigits ds) (hrest : Stops rest) :
    readWhole? (ds ++ rest) = some (ds, rest) := by
  unfold readWhole?
  rw [digits?_append h.1 hrest]
  split
  · next d ds' rest' heq =>
    simp only [Option.some.injEq, Prod.mk.injEq] at heq
    exact absurd heq.1 (h.2 _ _)
  · rfl

theorem FractionSpelling.read? {fraction point rest : List Char} (h : FractionSpelling fraction point)
    (hdigit : Stops rest) (hpoint : ∀ c ∈ rest.head?, c ≠ '.') :
    readFraction? (point ++ rest) = some (fraction, rest) := by
  cases h with
  | none =>
    cases rest with
    | nil => rfl
    | cons c cs =>
      have hc : c ≠ '.' := hpoint c rfl
      unfold readFraction?
      split
      · next heq => exact absurd (List.cons.inj heq).1 hc
      · rfl
  | digits h => exact digits?_append h hdigit

theorem SignSpelling.read? {minus : Bool} {sign ds : List Char} (h : SignSpelling minus sign) (hds : Digits ds) :
    readExponentDigits? (sign ++ ds) = some (minus, ds, []) := by
  have hread : digits? ds = some (ds, []) := by
    have hend : Stops [] := fun c hc => absurd hc (by simp)
    simpa using digits?_append hds hend
  cases h with
  | minus => simp [readExponentDigits?, hread]
  | plus => simp [readExponentDigits?, hread]
  | none =>
    obtain ⟨hne, hdigit⟩ := hds
    cases ds with
    | nil => exact absurd rfl hne
    | cons d ds =>
      have hd : d.isDigit = true := hdigit d List.mem_cons_self
      have hplus : d ≠ '+' := by rintro rfl; exact absurd hd (by decide)
      have hminus : d ≠ '-' := by rintro rfl; exact absurd hd (by decide)
      simp [readExponentDigits?, hplus, hminus, hread]

theorem ExponentSpelling.read? {exponent : Option (Bool × List Char)} {power : List Char}
    (h : ExponentSpelling exponent power) : readExponent? power = some (exponent, []) := by
  cases h with
  | none => rfl
  | digits hmark hsign h => simp [readExponent?, hmark, hsign.read? h]

theorem ExponentSpelling.head {exponent : Option (Bool × List Char)} {power : List Char}
    (h : ExponentSpelling exponent power) : ∀ c ∈ power.head?, c = 'e' ∨ c = 'E' := by
  cases h with
  | none => simp
  | @digits mark minus sign ds hmark hsign h =>
    intro c hc
    have hc : mark = c := by simpa using hc
    exact hc ▸ hmark

theorem ExponentSpelling.stops {exponent : Option (Bool × List Char)} {power : List Char}
    (h : ExponentSpelling exponent power) : Stops power := by
  intro c hc
  rcases h.head c hc with rfl | rfl <;> decide

theorem FractionSpelling.stops {fraction point power : List Char} (h : FractionSpelling fraction point)
    (hpower : Stops power) : Stops (point ++ power) := by
  cases h with
  | none => exact hpower
  | digits h =>
    intro c hc
    have hc : '.' = c := by simpa using hc
    subst hc
    decide

/-- Every way to write a number reads back as this number. -/
theorem Spelling.ofChars? {n : Numeral} {cs : List Char} (h : n.Spelling cs) : ofChars? cs = some n := by
  cases h with
  | @mk negative whole fraction exponent point power hwhole hpoint hpower =>
    have hstops : Stops (point ++ power) := hpoint.stops hpower.stops
    have hdot : ∀ c ∈ power.head?, c ≠ '.' := by
      intro c hc
      rcases hpower.head c hc with rfl | rfl <;> decide
    have hsign : readSign ((if negative then ['-'] else []) ++ (whole ++ (point ++ power))) =
        (negative, whole ++ (point ++ power)) := by
      cases negative with
      | true => rfl
      | false =>
        obtain ⟨⟨hne, hdigit⟩, -⟩ := hwhole
        cases whole with
        | nil => exact absurd rfl hne
        | cons d ds =>
          have hd : d ≠ '-' := by
            rintro rfl
            exact absurd (hdigit '-' List.mem_cons_self) (by decide)
          simp [readSign, hd]
    unfold Numeral.ofChars?
    rw [List.append_assoc, List.append_assoc, hsign]
    simp [readWhole?_append hwhole hstops, hpoint.read? hpower.stops hdot, hpower.read?]

/-- A way to write a number begins with a digit or a minus and has only characters of numbers. -/
theorem Spelling.chars {n : Numeral} {cs : List Char} (h : n.Spelling cs) :
    ∃ c rest, cs = c :: rest ∧ (c.isDigit = true ∨ c = '-') ∧ ∀ c ∈ rest, isNumeralChar c = true := by
  have hdigits : ∀ {ds : List Char}, (∀ c ∈ ds, c.isDigit = true) → ∀ c ∈ ds, isNumeralChar c = true := by
    intro ds hds c hc
    simp [isNumeralChar, hds c hc]
  cases h with
  | @mk negative whole fraction exponent point power hwhole hpoint hpower =>
    obtain ⟨⟨hne, hwholeDigits⟩, -⟩ := hwhole
    have hpointChars : ∀ c ∈ point, isNumeralChar c = true := by
      cases hpoint with
      | none => simp
      | digits h => simpa using ⟨by decide, hdigits h.2⟩
    have hpowerChars : ∀ c ∈ power, isNumeralChar c = true := by
      cases hpower with
      | none => simp
      | @digits mark minus sign ds hmark hsign h =>
        have hm : isNumeralChar mark = true := by rcases hmark with rfl | rfl <;> decide
        have hs : ∀ c ∈ sign, isNumeralChar c = true := by cases hsign <;> simp [isNumeralChar]
        simpa [or_imp, forall_and, hm] using ⟨hs, hdigits h.2⟩
    cases whole with
    | nil => exact absurd rfl hne
    | cons d ds =>
      have hd : d.isDigit = true := hwholeDigits d List.mem_cons_self
      have hds : ∀ c ∈ ds, isNumeralChar c = true := hdigits fun c hc => hwholeDigits c (List.mem_cons_of_mem _ hc)
      have hrest : ∀ c ∈ ds ++ (point ++ power), isNumeralChar c = true := by
        simpa [or_imp, forall_and] using ⟨hds, hpointChars, hpowerChars⟩
      cases negative with
      | false => exact ⟨d, ds ++ (point ++ power), by simp, .inl hd, hrest⟩
      | true =>
        refine ⟨'-', d :: (ds ++ (point ++ power)), by simp, .inr rfl, ?_⟩
        intro c hc
        rcases List.mem_cons.mp hc with rfl | hc
        · simp [isNumeralChar, hd]
        · exact hrest c hc

end Numeral

/-! ## Tokens -/

namespace Token

/-- Tokens that only the next character or the end of the text ends: numbers and words. -/
def loose : Token → Bool
  | .number _ | .null | .bool _ => true
  | _ => false

/-- Tokens that may be written without a blank between them. -/
def Apart (t u : Token) : Prop :=
  u.loose = true → t.loose = false

end Token

namespace Scanner

/-- The tokens are complete here: `ts` are read if the text ends or if something follows that does not go on with the
last of them. -/
structure Settled (s : Scanner) (ts : List Token) : Prop where
  close : s.close? = some ts
  feed : ∀ c, c.isAlpha = false → Numeral.isNumeralChar c = false → s.feed? c = begin? ts c

theorem settled_between (ts : List Token) : Settled ⟨ts, .between⟩ ts :=
  ⟨rfl, fun _ _ _ => rfl⟩

theorem settled_word (letters : List Char) {t : Token} (h : Token.ofWord? letters = some t) (ts : List Token) :
    Settled ⟨ts, .word letters.reverse⟩ (t :: ts) := by
  have hclose : Scanner.close? ⟨ts, .word letters.reverse⟩ = some (t :: ts) := by simp [close?, h]
  refine ⟨hclose, fun c halpha _ => ?_⟩
  simp only [feed?, halpha, Bool.false_eq_true, if_false, hclose, Option.bind_some]

theorem settled_numeral {cs : List Char} {n : Numeral} (h : Numeral.ofChars? cs = some n) (ts : List Token) :
    Settled ⟨ts, .numeral cs.reverse⟩ (.number n :: ts) := by
  have hclose : Scanner.close? ⟨ts, .numeral cs.reverse⟩ = some (.number n :: ts) := by simp [close?, h]
  refine ⟨hclose, fun c _ hnumeral => ?_⟩
  simp only [feed?, hnumeral, Bool.false_eq_true, if_false, hclose, Option.bind_some]

/-- The characters of a number are taken into the number that is being read. -/
theorem feed_numeral {cs : List Char} (h : ∀ c ∈ cs, Numeral.isNumeralChar c = true) (ts : List Token)
    (met : List Char) : cs.foldlM feed? ⟨ts, .numeral met⟩ = some ⟨ts, .numeral (cs.reverse ++ met)⟩ := by
  induction cs generalizing met with
  | nil => rfl
  | cons c cs ih =>
    have hc : feed? ⟨ts, .numeral met⟩ c = some ⟨ts, .numeral (c :: met)⟩ := by
      simp [feed?, h c List.mem_cons_self]
    rw [List.foldlM_cons, hc]
    simpa using ih (fun c hc => h c (List.mem_cons_of_mem _ hc)) (c :: met)

theorem isSpace_iff {c : Char} : isSpace c = true ↔ c = ' ' ∨ c = '\t' ∨ c = '\n' ∨ c = '\r' := by
  unfold isSpace
  simp only [Bool.or_eq_true, beq_iff_eq, or_assoc]

theorem Settled.blank {s : Scanner} {ts : List Token} (h : s.Settled ts) {c : Char} (hc : isSpace c = true) :
    s.feed? c = some ⟨ts, .between⟩ := by
  rcases isSpace_iff.mp hc with rfl | rfl | rfl | rfl <;> exact h.feed _ (by decide) (by decide)

end Scanner

open Scanner in
/-- The scan reads a token from any way to write it. A number or a word must not follow another one directly. -/
theorem Token.Spelling.scan {t : Token} {cs : List Char} (h : t.Spelling cs) {s : Scanner} {ts : List Token}
    (hs : s.Settled ts) (hcut : t.loose = true → s = ⟨ts, .between⟩) :
    ∃ s', cs.foldlM feed? s = some s' ∧ s'.Settled (t :: ts) ∧ (t.loose = false → s' = ⟨t :: ts, .between⟩) := by
  have hmark : ∀ c, c.isAlpha = false → Numeral.isNumeralChar c = false → begin? ts c = some ⟨t :: ts, .between⟩ →
      ∃ s', [c].foldlM feed? s = some s' ∧ s'.Settled (t :: ts) ∧ (t.loose = false → s' = ⟨t :: ts, .between⟩) := by
    intro c halpha hnumeral hbegin
    refine ⟨⟨t :: ts, .between⟩, ?_, settled_between _, fun _ => rfl⟩
    rw [List.foldlM_cons, hs.feed c halpha hnumeral, hbegin]
    rfl
  cases h with
  | @number n cs h =>
    obtain ⟨c, rest, rfl, hfirst, hrest⟩ := h.chars
    obtain rfl := hcut rfl
    have hbegin : feed? ⟨ts, .between⟩ c = some ⟨ts, .numeral [c]⟩ := by
      have hspace : isSpace c = false := by
        refine Bool.eq_false_iff.mpr fun hspace => ?_
        rcases isSpace_iff.mp hspace with rfl | rfl | rfl | rfl <;> exact absurd hfirst (by decide)
      have hquote : c ≠ '"' := by
        rintro rfl
        exact absurd hfirst (by decide)
      simp [feed?, begin?, hspace, hquote, hfirst]
    refine ⟨⟨ts, .numeral (c :: rest).reverse⟩, ?_, settled_numeral h.ofChars? ts, fun hloose => nomatch hloose⟩
    rw [List.foldlM_cons, hbegin]
    simpa using feed_numeral hrest ts [c]
  | @string gs inside h =>
    refine ⟨⟨.string gs :: ts, .between⟩, ?_, settled_between _, fun _ => rfl⟩
    have hopen : s.feed? '"' = some ⟨ts, .string []⟩ := hs.feed '"' (by decide) (by decide)
    rw [List.cons_append, List.foldlM_cons, hopen]
    show (inside ++ ['"']).foldlM feed? ⟨ts, .string []⟩ = _
    rw [List.foldlM_append, h.feed ts []]
    simp [feed?]
  | null =>
    obtain rfl := hcut rfl
    exact ⟨_, rfl, settled_word ['n', 'u', 'l', 'l'] rfl ts, fun hloose => nomatch hloose⟩
  | yes =>
    obtain rfl := hcut rfl
    exact ⟨_, rfl, settled_word ['t', 'r', 'u', 'e'] rfl ts, fun hloose => nomatch hloose⟩
  | no =>
    obtain rfl := hcut rfl
    exact ⟨_, rfl, settled_word ['f', 'a', 'l', 's', 'e'] rfl ts, fun hloose => nomatch hloose⟩
  | openArray | closeArray | openObject | closeObject | comma | colon =>
    exact hmark _ (by decide) (by decide) rfl

open Scanner in
/-- The scan reads tokens from any way to write them. -/
theorem Spaced.scan {ts : List Token} {cs : List Char} (h : Spaced ts cs) (hapart : ts.IsChain Token.Apart)
    {s : Scanner} {met : List Token} (hs : s.Settled met)
    (hcut : ∀ t ∈ ts.head?, t.loose = true → s = ⟨met, .between⟩) :
    (cs.foldlM feed? s).bind close? = some (ts.reverse ++ met) := by
  induction h generalizing s met with
  | nil => simpa using hs.close
  | blank hc _ ih =>
    rw [List.foldlM_cons, hs.blank hc]
    exact ih hapart (settled_between met) fun _ _ _ => rfl
  | @token t ts cs rest ht _ ih =>
    obtain ⟨s', hrun, hsettled, hbetween⟩ := ht.scan hs (hcut t rfl)
    have hcut' : ∀ u ∈ ts.head?, u.loose = true → s' = ⟨t :: met, .between⟩ := by
      intro u hu hloose
      cases ts with
      | nil => cases hu
      | cons v ts =>
        have hv : v = u := by simpa using hu
        subst hv
        exact hbetween ((List.isChain_cons_cons.mp hapart).1 hloose)
    have hrest := ih hapart.tail hsettled hcut'
    rw [List.foldlM_append, hrun]
    simpa using hrest

/-! ## Documents -/

namespace Document

theorem isChain_apart_append {ts us : List Token} {t : Token} (hts : ts.IsChain Token.Apart)
    (hus : us.IsChain Token.Apart) (ht : t.loose = false) : (ts ++ t :: us).IsChain Token.Apart := by
  have hcons : (t :: us).IsChain Token.Apart := by
    cases us with
    | nil => exact List.isChain_singleton t
    | cons u us => exact List.isChain_cons_cons.mpr ⟨fun _ => ht, hus⟩
  refine List.isChain_append.mpr ⟨hts, hcons, fun a _ b hb hloose => ?_⟩
  have hb : t = b := by simpa using hb
  rw [← hb, ht] at hloose
  cases hloose

mutual

/-- In the tokens of a document no number or word stands directly behind another one. -/
theorem isChain_tokens : ∀ d : Document, d.tokens.IsChain Token.Apart
  | .null | .bool _ | .number _ | .string _ => List.isChain_singleton _
  | .array items => isChain_apart_append List.isChain_nil (isChain_itemTokens items) rfl
  | .object fields => isChain_apart_append List.isChain_nil (isChain_fieldTokens fields) rfl

theorem isChain_itemTokens : ∀ items : List Document, (itemTokens items).IsChain Token.Apart
  | [] => List.isChain_singleton _
  | [d] => isChain_apart_append (isChain_tokens d) List.isChain_nil rfl
  | d :: e :: items => isChain_apart_append (isChain_tokens d) (isChain_itemTokens (e :: items)) rfl

theorem isChain_fieldTokens : ∀ fields : List (List Glyph × Document), (fieldTokens fields).IsChain Token.Apart
  | [] => List.isChain_singleton _
  | [(name, d)] => by
    show ([Token.string name] ++ Token.colon :: (d.tokens ++ [Token.closeObject])).IsChain Token.Apart
    have hvalue := isChain_apart_append (t := .closeObject) (isChain_tokens d) List.isChain_nil rfl
    exact isChain_apart_append (List.isChain_singleton _) hvalue rfl
  | (name, d) :: f :: fields => by
    show ([Token.string name] ++ Token.colon :: (d.tokens ++ Token.comma :: fieldTokens (f :: fields))).IsChain
      Token.Apart
    have hvalue := isChain_apart_append (t := .comma) (isChain_tokens d) (isChain_fieldTokens (f :: fields)) rfl
    exact isChain_apart_append (List.isChain_singleton _) hvalue rfl

end

/-- Behind `[` an item is read as it is behind a comma. -/
theorem foldlM_firstItem (d : Document) (rest : List Token) (around : List Unclosed) :
    (d.tokens ++ rest).foldlM Reader.take? (.firstItem around) =
      (d.tokens ++ rest).foldlM Reader.take? (.value (.items [] :: around)) := by
  cases d <;> rfl

mutual

/-- The reader takes the tokens of a document and puts the document where it stands. -/
theorem foldlM_tokens : ∀ (d : Document) (rest : List Token) (around : List Unclosed),
    (d.tokens ++ rest).foldlM Reader.take? (.value around) = rest.foldlM Reader.take? (Reader.put d around)
  | .null, _, _ | .bool _, _, _ | .number _, _, _ | .string _, _, _ => rfl
  | .array [], _, _ | .object [], _, _ => rfl
  | .array (d :: items), rest, around =>
    calc ((Document.array (d :: items)).tokens ++ rest).foldlM Reader.take? (.value around)
        = (itemTokens (d :: items) ++ rest).foldlM Reader.take? (.firstItem around) := rfl
      _ = (itemTokens (d :: items) ++ rest).foldlM Reader.take? (.value (.items [] :: around)) := by
        cases items with
        | nil => simp only [itemTokens, List.append_assoc, foldlM_firstItem]
        | cons e items => simp only [itemTokens, List.append_assoc, foldlM_firstItem]
      _ = _ := foldlM_itemTokens (d :: items) (List.cons_ne_nil _ _) [] rest around
  | .object ((name, d) :: fields), rest, around =>
    calc ((Document.object ((name, d) :: fields)).tokens ++ rest).foldlM Reader.take? (.value around)
        = (fieldTokens ((name, d) :: fields) ++ rest).foldlM Reader.take? (.firstField around) := rfl
      _ = (fieldTokens ((name, d) :: fields) ++ rest).foldlM Reader.take? (.nextField [] around) := by
        cases fields <;> rfl
      _ = _ := foldlM_fieldTokens ((name, d) :: fields) (List.cons_ne_nil _ _) [] rest around

/-- The reader takes the items of an array behind those that it has met. -/
theorem foldlM_itemTokens : ∀ items : List Document, items ≠ [] → ∀ (met : List Document) (rest : List Token)
    (around : List Unclosed),
    (itemTokens items ++ rest).foldlM Reader.take? (.value (.items met :: around)) =
      rest.foldlM Reader.take? (Reader.put (.array (met.reverse ++ items)) around)
  | [], h, _, _, _ => absurd rfl h
  | [d], _, met, rest, around => by
    show (d.tokens ++ [Token.closeArray] ++ rest).foldlM Reader.take? (.value (.items met :: around)) = _
    rw [List.append_assoc, foldlM_tokens d _ (.items met :: around)]
    show rest.foldlM Reader.take? (Reader.put (.array (d :: met).reverse) around) = _
    rw [List.reverse_cons]
  | d :: e :: items, _, met, rest, around => by
    show (d.tokens ++ Token.comma :: itemTokens (e :: items) ++ rest).foldlM Reader.take?
      (.value (.items met :: around)) = _
    rw [List.append_assoc, foldlM_tokens d _ (.items met :: around)]
    show (itemTokens (e :: items) ++ rest).foldlM Reader.take? (.value (.items (d :: met) :: around)) = _
    rw [foldlM_itemTokens (e :: items) (List.cons_ne_nil _ _) (d :: met) rest around, List.reverse_cons,
      List.append_assoc]
    rfl

/-- The reader takes the fields of an object behind those that it has met. -/
theorem foldlM_fieldTokens : ∀ fields : List (List Glyph × Document), fields ≠ [] →
    ∀ (met : List (List Glyph × Document)) (rest : List Token) (around : List Unclosed),
    (fieldTokens fields ++ rest).foldlM Reader.take? (.nextField met around) =
      rest.foldlM Reader.take? (Reader.put (.object (met.reverse ++ fields)) around)
  | [], h, _, _, _ => absurd rfl h
  | [(name, d)], _, met, rest, around => by
    show (d.tokens ++ [Token.closeObject] ++ rest).foldlM Reader.take? (.value (.fields met name :: around)) = _
    rw [List.append_assoc, foldlM_tokens d _ (.fields met name :: around)]
    show rest.foldlM Reader.take? (Reader.put (.object ((name, d) :: met).reverse) around) = _
    rw [List.reverse_cons]
  | (name, d) :: f :: fields, _, met, rest, around => by
    show (d.tokens ++ Token.comma :: fieldTokens (f :: fields) ++ rest).foldlM Reader.take?
      (.value (.fields met name :: around)) = _
    rw [List.append_assoc, foldlM_tokens d _ (.fields met name :: around)]
    show (fieldTokens (f :: fields) ++ rest).foldlM Reader.take? (.nextField ((name, d) :: met) around) = _
    rw [foldlM_fieldTokens (f :: fields) (List.cons_ne_nil _ _) ((name, d) :: met) rest around, List.reverse_cons,
      List.append_assoc]
    rfl

end

theorem ofTokens?_tokens (d : Document) : ofTokens? d.tokens = some d := by
  have h := foldlM_tokens d [] []
  rw [List.append_nil] at h
  unfold ofTokens?
  rw [h]
  rfl

/-- Every way to write a document reads back as this document. -/
theorem Spelling.read? {d : Document} {text : String} (h : d.Spelling text.toList) : read? text = some d := by
  have hscan : (text.toList.foldlM Scanner.feed? ⟨[], .between⟩).bind Scanner.close? = some d.tokens.reverse := by
    simpa using Spaced.scan h d.isChain_tokens (Scanner.settled_between []) fun _ _ _ => rfl
  unfold Document.read? Token.scan?
  rw [hscan]
  simpa using d.ofTokens?_tokens

end Document

/-! ## What is written -/

namespace Glyph

theorem hexValue?_hexDigit (n : Nat) : Scanner.hexValue? (hexDigit n) = some (n % 16) := by
  have hall : ∀ k : Fin 16, Scanner.hexValue? (Nat.digitChar k) = some k.val := by decide
  exact hall ⟨n % 16, Nat.mod_lt n (by decide)⟩

/-- The escape of a unit spells what the unit stands for. -/
theorem spelling_unitEscape {n : Nat} (hn : n < 65536) : (ofUnit n).Spelling (unitEscape n) := by
  have hvalue : 4096 * (n / 4096 % 16) + 256 * (n / 256 % 16) + 16 * (n / 16 % 16) + n % 16 = n := by omega
  have h := Spelling.unit (hexValue?_hexDigit (n / 4096)) (hexValue?_hexDigit (n / 256)) (hexValue?_hexDigit (n / 16))
    (hexValue?_hexDigit n)
  rw [hvalue] at h
  exact h

theorem ofUnit_toNat {c : Char} (hc : c.toNat < 0x20) : ofUnit c.toNat = .char c := by
  have h₁ : c.toNat / 1024 ≠ 54 := by omega
  have h₂ : c.toNat / 1024 ≠ 55 := by omega
  unfold ofUnit
  rw [if_neg h₁, if_neg h₂, Char.ofNat_toNat]

theorem spelling_charEscape (c : Char) : (Glyph.char c).Spelling (charEscape c) := by
  have hletter : ∀ l : Char, Scanner.escaped? l = some c → (Glyph.char c).Spelling ['\\', l] := fun _ => .letter
  have hcode : ∀ d : Char, c.toNat = d.toNat → c = d := fun d h => by
    rw [← Char.ofNat_toNat c, h, Char.ofNat_toNat]
  unfold charEscape
  split
  · next h => subst h; exact hletter '"' rfl
  · next hquote =>
    split
    · next h => subst h; exact hletter '\\' rfl
    · next hback =>
      split
      · next h => obtain rfl := hcode '\x08' h; exact hletter 'b' rfl
      · split
        · next h => obtain rfl := hcode '\t' h; exact hletter 't' rfl
        · split
          · next h => obtain rfl := hcode '\n' h; exact hletter 'n' rfl
          · split
            · next h => obtain rfl := hcode '\x0c' h; exact hletter 'f' rfl
            · split
              · next h => obtain rfl := hcode '\r' h; exact hletter 'r' rfl
              · split
                · next h =>
                  rw [← ofUnit_toNat h]
                  exact spelling_unitEscape (by omega)
                · next h => exact .plain hquote hback (Nat.not_lt.mp h)

theorem spelling_chars (g : Glyph) : g.Spelling g.chars := by
  cases g with
  | char c => exact spelling_charEscape c
  | lead bits =>
    have hbits : bits.val < 1024 := bits.isLt
    have hunit : ofUnit (0xD800 + bits) = lead bits := by
      have h : (0xD800 + bits.val) / 1024 = 54 := by omega
      unfold ofUnit
      rw [if_pos h]
      exact congrArg lead (Fin.ext (by simp only [Fin.ofNat]; omega))
    have h := spelling_unitEscape (n := 0xD800 + bits) (by omega)
    rw [hunit] at h
    exact h
  | trail bits =>
    have hbits : bits.val < 1024 := bits.isLt
    have hunit : ofUnit (0xDC00 + bits) = trail bits := by
      have h₁ : (0xDC00 + bits.val) / 1024 ≠ 54 := by omega
      have h₂ : (0xDC00 + bits.val) / 1024 = 55 := by omega
      unfold ofUnit
      rw [if_neg h₁, if_pos h₂]
      exact congrArg trail (Fin.ext (by simp only [Fin.ofNat]; omega))
    have h := spelling_unitEscape (n := 0xDC00 + bits) (by omega)
    rw [hunit] at h
    exact h

theorem glyphsSpelling_chars (gs : List Glyph) : GlyphsSpelling gs (gs.flatMap Glyph.chars) := by
  induction gs with
  | nil => exact .nil
  | cons g gs ih => exact .cons g.spelling_chars ih

end Glyph

namespace Numeral

theorem natValue_append (ds : List Char) (d : Char) : natValue (ds ++ [d]) = 10 * natValue ds + digitValue d := by
  unfold natValue
  rw [List.foldl_append]
  rfl

theorem digitValue_digitChar {n : Nat} (hn : n < 10) : digitValue (Nat.digitChar n) = n := by
  have hall : ∀ k : Fin 10, digitValue (Nat.digitChar k) = k.val := by decide
  exact hall ⟨n, hn⟩

/-- The digits of a count stand for the count. -/
theorem natValue_toDigits (n : Nat) : natValue (Nat.toDigits 10 n) = n := by
  induction n using Nat.strongRecOn with
  | ind n ih =>
    by_cases hn : n < 10
    · rw [Nat.toDigits_of_lt_base hn]
      show 10 * 0 + digitValue (Nat.digitChar n) = n
      rw [digitValue_digitChar hn]
      omega
    · rw [Nat.toDigits_of_base_le (by decide) (by omega), natValue_append, ih (n / 10) (by omega),
        digitValue_digitChar (Nat.mod_lt n (by decide))]
      omega

/-- The digits of a count other than zero do not begin with a zero. -/
theorem head_toDigits_ne_zero {n : Nat} (hn : 0 < n) : (Nat.toDigits 10 n).head? ≠ some '0' := by
  induction n using Nat.strongRecOn with
  | ind n ih =>
    by_cases hlt : n < 10
    · rw [Nat.toDigits_of_lt_base hlt]
      have hall : ∀ k : Fin 10, 0 < k.val → [Nat.digitChar k].head? ≠ some '0' := by decide
      exact hall ⟨n, hlt⟩ hn
    · rw [Nat.toDigits_of_base_le (by decide) (by omega), List.head?_append_of_ne_nil _ Nat.toDigits_ne_nil]
      exact ih (n / 10) (by omega) (by omega)

theorem wholeDigits_toDigits (n : Nat) : WholeDigits (Nat.toDigits 10 n) := by
  refine ⟨⟨Nat.toDigits_ne_nil, fun c hc => Nat.isDigit_of_mem_toDigits (by decide) (by decide) hc⟩, ?_⟩
  intro d rest heq
  by_cases hn : n = 0
  · subst hn
    cases heq
  · exact head_toDigits_ne_zero (Nat.pos_of_ne_zero hn) (by rw [heq]; rfl)

/-- A count is written as one of the ways to write its numeral. -/
theorem spelling_ofInt (n : Int) : (ofInt n).Spelling (ofInt n).chars :=
  .mk (wholeDigits_toDigits n.natAbs) .none .none

end Numeral

/-- Written token by token, tokens are spaced: no blank is needed. -/
theorem spaced_chars {ts : List Token} (h : ∀ t ∈ ts, t.Spelling t.chars) : Spaced ts (ts.flatMap Token.chars) := by
  induction ts with
  | nil => exact .nil
  | cons t ts ih => exact .token (h t List.mem_cons_self) (ih fun u hu => h u (List.mem_cons_of_mem t hu))

namespace Document

/-- All tokens of the document are written in one of the ways to write them, so its numbers are numbers of JSON. -/
def Proper (d : Document) : Prop :=
  ∀ t ∈ d.tokens, t.Spelling t.chars

theorem proper_bool (b : Bool) : (bool b).Proper := by
  intro t ht
  obtain rfl := List.mem_singleton.mp ht
  cases b with
  | true => exact .yes
  | false => exact .no

theorem proper_string (gs : List Glyph) : (string gs).Proper := by
  intro t ht
  obtain rfl := List.mem_singleton.mp ht
  exact .string (Glyph.glyphsSpelling_chars gs)

theorem proper_number (n : Int) : (number (.ofInt n)).Proper := by
  intro t ht
  obtain rfl := List.mem_singleton.mp ht
  exact .number (Numeral.spelling_ofInt n)

/-- An object is proper if its fields are. -/
theorem proper_object {fields : List (List Glyph × Document)} (h : ∀ f ∈ fields, f.2.Proper) :
    (object fields).Proper := by
  have hname : ∀ gs : List Glyph, (Token.string gs).Spelling (Token.string gs).chars :=
    fun gs => .string (Glyph.glyphsSpelling_chars gs)
  have hfields : ∀ t ∈ fieldTokens fields, t.Spelling t.chars := by
    induction fields with
    | nil =>
      intro t ht
      obtain rfl := List.mem_singleton.mp ht
      exact .closeObject
    | cons f fields ih =>
      obtain ⟨name, d⟩ := f
      have hd : d.Proper := h (name, d) List.mem_cons_self
      have hrest := ih fun f hf => h f (List.mem_cons_of_mem _ hf)
      intro t ht
      cases fields with
      | nil =>
        simp only [fieldTokens, List.mem_cons, List.mem_append, List.not_mem_nil, or_false, List.cons_append] at ht
        rcases ht with rfl | rfl | ht | rfl
        · exact hname name
        · exact .colon
        · exact hd t ht
        · exact .closeObject
      | cons g fields =>
        simp only [fieldTokens, List.mem_cons, List.mem_append, List.cons_append] at ht
        rcases ht with rfl | rfl | ht | rfl | ht
        · exact hname name
        · exact .colon
        · exact hd t ht
        · exact .comma
        · exact hrest t ht
  intro t ht
  rcases List.mem_cons.mp ht with rfl | ht
  · exact .openObject
  · exact hfields t ht

/-- The text that is written is one of the ways to write the document. -/
theorem spelling_write {d : Document} (h : d.Proper) : d.Spelling d.write.toList := by
  unfold Spelling write
  rw [String.toList_ofList]
  exact spaced_chars h

end Document

end HybridTemplate.Json
