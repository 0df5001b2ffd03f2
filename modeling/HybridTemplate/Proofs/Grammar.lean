import Mathlib.Data.List.Forall2
import HybridTemplate.Proofs.Scan

/-!
# The grammar of template source

What a template source says, told without a scan. A source is a row of pieces: a text goes on up to the first place
where a markup opens, and a markup goes on up to the first place where its delimiter closes. A piece writes a node or
has a fault, and the source says the nodes of its pieces, or the fault of the leftmost piece that has one.

* `Cut` — the pieces of a source; there is one cut of each source, the one that the scan makes (`cut_iff`);
* `Writes`, `Faulty` — the node that a piece writes, and the fault of a piece that writes none (`ofPiece_eq_ok_iff`,
  `ofPiece_eq_error_iff`);
* `Parses` — what a source says, and `parse_eq_iff`: it is what `Template.parse` answers.
-/

namespace HybridTemplate.Grammar

open Text

/-! ## Pieces -/

/-- None of the marks begins in a text, where the text is seen with what follows it. -/
def NoneBegins (marks : List (List Char)) (cs after : List Char) : Prop :=
  ∀ pre post, cs = pre ++ post → post ≠ [] → ∀ mark ∈ marks, ¬mark <+: post ++ after

/-- The delimiters that open a markup. -/
def openings : List (List Char) :=
  [Delimiter.output.opening, Delimiter.tag.opening]

/-- The pieces of a source. -/
inductive Cut : List Char → List Piece → Prop
  | nil : Cut [] []
  /-- A text is not empty, and it ends with the source or where the next markup opens. -/
  | text {content rest : List Char} {ps : List Piece} (hne : content ≠ []) (hfree : NoneBegins openings content rest)
      (hend : rest = [] ∨ ∃ mark ∈ openings, mark <+: rest) (h : Cut rest ps) :
      Cut (content ++ rest) (.text content :: ps)
  /-- A markup ends where its delimiter first closes. -/
  | markup {d : Delimiter} {body rest : List Char} {ps : List Piece}
      (hfirst : NoneBegins [d.closing] body (d.closing ++ rest)) (h : Cut rest ps) :
      Cut (d.opening ++ body ++ d.closing ++ rest) (.markup d body :: ps)
  /-- A markup that is not closed takes the rest of the source. -/
  | unclosed {d : Delimiter} {body : List Char} (hnone : NoneBegins [d.closing] body []) :
      Cut (d.opening ++ body) [.unclosed d body]

/-! ## Nodes -/

/-- The characters of names. -/
def NameChar (c : Char) : Prop :=
  'a' ≤ c ∧ c ≤ 'z' ∨ 'A' ≤ c ∧ c ≤ 'Z' ∨ '0' ≤ c ∧ c ≤ '9' ∨ c = '_' ∨ c = '-' ∨ c = '?'

/-- The body is what is left of the text between two delimiters without the blanks around it. -/
def Trims (raw body : List Char) : Prop :=
  ∃ pre post, raw = pre ++ body ++ post ∧ (∀ c ∈ pre, isBlank c = true) ∧ (∀ c ∈ post, isBlank c = true) ∧ Trimmed body

/-- The first word of a text that does not begin with a blank. -/
def FirstWord (body word : List Char) : Prop :=
  ∃ rest, body = word ++ rest ∧ (∀ c ∈ word, isBlank c = false) ∧ ∀ c ∈ rest.head?, isBlank c = true

/-- The path is one of names that are not empty, and the body writes it with dots between them. -/
structure WritesPath (body : List Char) (v : Variable) : Prop where
  names : ∀ s ∈ v.name :: v.members, s ≠ "" ∧ ∀ c ∈ s.toList, NameChar c
  body : body = ['.'].intercalate ((v.name :: v.members).map String.toList)

/-- The body is the word `include`, blanks, and a name between two equal quotes, which is not empty and does not hold
its quote. -/
structure WritesInclusion (body : List Char) (tag : Inclusion) : Prop where
  body : body = ['i', 'n', 'c', 'l', 'u', 'd', 'e'] ++ tag.gap.toList ++ tag.quote :: tag.key.toList ++ [tag.quote]
  gap : tag.gap ≠ "" ∧ ∀ c ∈ tag.gap.toList, isBlank c = true
  quote : tag.quote = '\'' ∨ tag.quote = '"'
  key : tag.key ≠ "" ∧ tag.quote ∉ tag.key.toList

/-- The node that a piece writes. -/
inductive Writes : Piece → Node → Prop
  | text {content : List Char} : Writes (.text content) (.text (String.ofList content))
  | output {raw body : List Char} {v : Variable} (hb : Trims raw body) (h : WritesPath body v) :
      Writes (.markup .output raw) (.output v)
  | inclusion {raw body : List Char} {tag : Inclusion} (hb : Trims raw body) (h : WritesInclusion body tag) :
      Writes (.markup .tag raw) (.inclusion tag)

/-- The fault of a piece that begins at byte `offset`. -/
inductive Faulty (offset : Nat) : Piece → ParseError → Prop
  | unclosed {d : Delimiter} {body : List Char} : Faulty offset (.unclosed d body) (.unclosed d offset)
  | path {raw body : List Char} (hb : Trims raw body) (h : ∀ v, ¬WritesPath body v) :
      Faulty offset (.markup .output raw) (.invalidVariable (String.ofList body))
  | inclusion {raw body : List Char} (hb : Trims raw body) (hw : FirstWord body ['i', 'n', 'c', 'l', 'u', 'd', 'e'])
      (h : ∀ tag, ¬WritesInclusion body tag) : Faulty offset (.markup .tag raw) (.invalidInclusion (String.ofList body))
  | unknown {raw body word : List Char} (hb : Trims raw body) (hw : FirstWord body word)
      (h : word ≠ ['i', 'n', 'c', 'l', 'u', 'd', 'e']) :
      Faulty offset (.markup .tag raw) (.unknownTag (String.ofList word))

/-- What a source says: its pieces write the nodes of the template, or the fault is the one of the leftmost piece that
writes no node, and the bytes of the pieces before it say where it begins. -/
def Parses (source : String) : Except ParseError Template → Prop
  | .ok t => ∃ ps, Cut source.toList ps ∧ List.Forall₂ Writes ps t.nodes
  | .error e => ∃ before p after nodes, Cut source.toList (before ++ p :: after) ∧ List.Forall₂ Writes before nodes ∧
      Faulty (String.ofList (before.flatMap Piece.source)).utf8ByteSize p e

/-! ## The scan cuts -/

section

variable {marks : List (List Char)} {p : List Char → Bool} {d : Delimiter} {cs rest after : List Char}

/-- A place where a mark begins is one that a test finds which says just this. -/
theorem noneBegins_iff (hp : ∀ cs, p cs = true ↔ ∃ mark ∈ marks, mark <+: cs) :
    NoneBegins marks cs after ↔ Nowhere p cs after := by
  constructor
  · intro h pre post hcs hne
    refine Bool.eq_false_iff.mpr fun htrue => ?_
    obtain ⟨mark, hm, hprefix⟩ := (hp _).mp htrue
    exact h pre post hcs hne mark hm hprefix
  · intro h pre post hcs hne mark hm hprefix
    have htrue := (hp _).mpr ⟨mark, hm, hprefix⟩
    rw [h pre post hcs hne] at htrue
    cases htrue

theorem isSome_opened?_iff {a b : Char} : (Delimiter.opened? a b).isSome = true ↔ '{' = a ∧ ('{' = b ∨ '%' = b) := by
  unfold Delimiter.opened?
  by_cases ha : a = '{'
  · by_cases hb : b = '{'
    · simp [ha, hb]
    · simp [ha, hb, Ne.symm hb]
      exact eq_comm
  · simp [ha, Ne.symm ha]

theorem opensMarkup_iff (cs : List Char) : opensMarkup cs = true ↔ ∃ mark ∈ openings, mark <+: cs := by
  rcases cs with _ | ⟨a, _ | ⟨b, cs⟩⟩
  · simp [opensMarkup, openings, Delimiter.opening]
  · simp [opensMarkup, openings, Delimiter.opening]
  · simp only [opensMarkup, isSome_opened?_iff, openings, Delimiter.opening, List.mem_cons, List.not_mem_nil, or_false,
      exists_eq_or_imp, exists_eq_left, List.cons_prefix_cons, List.nil_prefix, and_true, and_or_left]

theorem closes_iff (cs : List Char) : d.closes cs = true ↔ ∃ mark ∈ [d.closing], mark <+: cs := by
  rcases cs with _ | ⟨a, _ | ⟨b, cs⟩⟩
  · cases d <;> simp [Delimiter.closes, Delimiter.closing]
  · cases d <;> simp [Delimiter.closes, Delimiter.closing]
  · have hclosed : d.closes (a :: b :: cs) = true ↔ d.closing = [a, b] := beq_iff_eq.trans eq_comm
    rw [hclosed]
    cases d <;> simp [Delimiter.closing]

theorem noneBegins_openings_iff : NoneBegins openings cs after ↔ Nowhere opensMarkup cs after :=
  noneBegins_iff opensMarkup_iff

theorem noneBegins_closing_iff : NoneBegins [d.closing] cs after ↔ Nowhere d.closes cs after :=
  noneBegins_iff closes_iff

end

/-- The pieces of what the scan has met of a text, and of what follows it, which is cut. -/
theorem cut_flush {met rest : List Char} {ps : List Piece} (hfree : Nowhere opensMarkup met.reverse rest)
    (hend : rest = [] ∨ ∃ mark ∈ openings, mark <+: rest) (h : Cut rest ps) :
    Cut (met.reverse ++ rest) (Piece.flush met ++ ps) := by
  cases met with
  | nil => exact h
  | cons a met =>
    have hne : (a :: met).reverse ≠ [] := List.reverse_ne_nil_iff.mpr (List.cons_ne_nil a met)
    exact .text hne (noneBegins_openings_iff.mpr hfree) hend h

/-- What the scan has met holds no place where the piece it is in would have ended. -/
def Unended (rest : List Char) : Piece.Mode → Prop
  | .outside met => Nowhere opensMarkup met.reverse rest
  | .inside d met => Nowhere d.closes met.reverse rest

/-- Wherever the scan stands, it cuts what it has met and what is still to come. -/
theorem cut_scan (m : Piece.Mode) (cs : List Char) (hm : Unended cs m) :
    Cut (m.source ++ cs) (Piece.scan m cs) := by
  fun_induction Piece.scan m cs with
  | case1 met => simpa [Piece.Mode.source] using cut_flush hm (.inl rfl) .nil
  | case2 met a =>
    have hfree : Nowhere opensMarkup (a :: met).reverse [] := by
      rw [List.reverse_cons, nowhere_append]
      exact ⟨hm, nowhere_cons.mpr ⟨rfl, nowhere_nil⟩⟩
    simpa [Piece.Mode.source] using cut_flush hfree (.inl rfl) .nil
  | case3 met a b rest d hd ih =>
    have hopening : d.opening ++ rest = a :: b :: rest := by rw [Delimiter.opening_of_opened? hd]; rfl
    have hmem : d.opening ∈ openings := by cases d <;> simp [openings]
    have hrest : Cut (a :: b :: rest) (Piece.scan (.inside d []) rest) := by
      rw [← hopening]
      simpa [Piece.Mode.source] using ih nowhere_nil
    exact cut_flush hm (.inr ⟨d.opening, hmem, by rw [← hopening]; exact List.prefix_append _ _⟩) hrest
  | case4 met a b rest hd ih =>
    have hfree : Nowhere opensMarkup (a :: met).reverse (b :: rest) := by
      rw [List.reverse_cons, nowhere_append]
      exact ⟨hm, nowhere_cons.mpr ⟨by simp [opensMarkup, hd], nowhere_nil⟩⟩
    simpa [Piece.Mode.source] using ih hfree
  | case5 d met => simpa [Piece.Mode.source] using Cut.unclosed (noneBegins_closing_iff.mpr hm)
  | case6 d met a =>
    have hnone : Nowhere d.closes (a :: met).reverse [] := by
      rw [List.reverse_cons, nowhere_append]
      exact ⟨hm, nowhere_cons.mpr ⟨rfl, nowhere_nil⟩⟩
    simpa [Piece.Mode.source] using Cut.unclosed (noneBegins_closing_iff.mpr hnone)
  | case7 d met a b rest hd ih =>
    have hclosing : d.closing ++ rest = a :: b :: rest := by rw [Delimiter.closing_of_isClosedBy hd]; rfl
    have hfirst : Nowhere d.closes met.reverse (d.closing ++ rest) := by rw [hclosing]; exact hm
    have hcut := Cut.markup (noneBegins_closing_iff.mpr hfirst) (ih nowhere_nil)
    simpa [Piece.Mode.source, hclosing] using hcut
  | case8 d met a b rest hd ih =>
    have hnone : Nowhere d.closes (a :: met).reverse (b :: rest) := by
      rw [List.reverse_cons, nowhere_append]
      exact ⟨hm, nowhere_cons.mpr ⟨Bool.eq_false_iff.mpr hd, nowhere_nil⟩⟩
    simpa [Piece.Mode.source] using ih hnone

/-- A markup that nothing closes takes the rest. -/
theorem scan_inside_of_nowhere {d : Delimiter} {met cs : List Char} (h : Nowhere d.closes cs []) :
    Piece.scan (.inside d met) cs = [.unclosed d (met.reverse ++ cs)] := by
  induction cs generalizing met with
  | nil => simp [Piece.scan]
  | cons a cs ih =>
    obtain ⟨ha, h⟩ := nowhere_cons.mp h
    rcases cs with _ | ⟨b, cs⟩
    · simp [Piece.scan]
    · have hclosed : d.isClosedBy a b = false := by simpa [Delimiter.closes] using ha
      rw [Piece.scan, if_neg (by simp [hclosed]), ih h]
      simp

/-- Behind a text the scan goes on with what opens there. -/
theorem scan_flush {met rest : List Char} (hend : rest = [] ∨ ∃ mark ∈ openings, mark <+: rest) :
    Piece.scan (.outside met) rest = Piece.flush met ++ Piece.scan (.outside []) rest := by
  rcases hend with rfl | hopens
  · simp [Piece.scan, Piece.flush]
  · have htrue := (opensMarkup_iff rest).mpr hopens
    rcases rest with _ | ⟨a, _ | ⟨b, rest⟩⟩
    · cases htrue
    · cases htrue
    · obtain ⟨d, hd⟩ := Option.isSome_iff_exists.mp htrue
      simp [Piece.scan, hd, Piece.flush]

/-- Every cut is the one that the scan makes. -/
theorem Cut.eq_ofSource {cs : List Char} {ps : List Piece} (h : Cut cs ps) : ps = Piece.ofSource cs := by
  induction h with
  | nil => rfl
  | @text content rest ps hne hfree hend h ih =>
    have hcontent : content.reverse ≠ [] := List.reverse_ne_nil_iff.mpr hne
    have hflush : Piece.flush content.reverse = [.text content] := by
      rcases hrev : content.reverse with _ | ⟨a, met⟩
      · exact absurd hrev hcontent
      · rw [Piece.flush, ← hrev, List.reverse_reverse]
        exact fun hnil => List.cons_ne_nil a met hnil
    rw [Piece.ofSource, Piece.scan_outside_append (noneBegins_openings_iff.mp hfree), List.append_nil,
      scan_flush hend, hflush, ih]
    rfl
  | @markup d body rest ps hfirst h ih =>
    obtain ⟨a, b, hopening, hopened⟩ := Delimiter.opened?_opening d
    have hsource : d.opening ++ body ++ d.closing ++ rest = a :: b :: (body ++ d.closing ++ rest) := by
      simp [hopening]
    rw [hsource, Piece.ofSource, Piece.scan, hopened]
    simp only [Piece.scan_inside_append (noneBegins_closing_iff.mp hfirst), Piece.flush, List.reverse_nil,
      List.nil_append]
    rw [ih, Piece.ofSource]
  | @unclosed d body hnone =>
    obtain ⟨a, b, hopening, hopened⟩ := Delimiter.opened?_opening d
    have hsource : d.opening ++ body = a :: b :: body := by simp [hopening]
    rw [hsource, Piece.ofSource, Piece.scan, hopened]
    simp [scan_inside_of_nowhere (noneBegins_closing_iff.mp hnone), Piece.flush]

/-- Each source has one cut. -/
theorem cut_iff {cs : List Char} {ps : List Piece} : Cut cs ps ↔ Piece.ofSource cs = ps := by
  constructor
  · exact fun h => h.eq_ofSource.symm
  · rintro rfl
    exact cut_scan (.outside []) cs nowhere_nil

/-! ## Bodies -/

section

variable {raw body word : List Char}

theorem trims_iff : Trims raw body ↔ trim raw = body := by
  constructor
  · rintro ⟨pre, post, rfl, hpre, hpost, hbody⟩
    exact hbody.trim_append hpre hpost
  · rintro rfl
    obtain ⟨pre, post, hraw, hpre, hpost⟩ := exists_eq_append_trim raw
    exact ⟨pre, post, hraw, hpre, hpost, trimmed_trim raw⟩

theorem firstWord_iff (hb : Trimmed body) : FirstWord body word ↔ firstWord body = word := by
  rw [firstWord, trimLeft_of_head hb.head]
  constructor
  · rintro ⟨rest, rfl, hword, hrest⟩
    have hstop : rest.takeWhile (fun c => !isBlank c) = [] := by
      cases rest with
      | nil => rfl
      | cons c rest => simp [hrest c rfl]
    rw [List.takeWhile_append_of_pos (by simpa using hword), hstop, List.append_nil]
  · rintro rfl
    refine ⟨body.dropWhile fun c => !isBlank c, List.takeWhile_append_dropWhile.symm, ?_, ?_⟩
    · intro c hc
      simpa using List.all_eq_true.mp List.all_takeWhile c hc
    · intro c hc
      have hnot := List.head?_dropWhile_not (fun c => !isBlank c) body
      rw [Option.mem_def.mp hc] at hnot
      simpa using hnot

/-! ## Paths -/

theorem isNameChar_iff {c : Char} : Variable.isNameChar c = true ↔ NameChar c := by
  unfold Variable.isNameChar NameChar
  delta Char.isAlphanum Char.isAlpha Char.isUpper Char.isLower Char.isDigit
  simp only [Bool.or_eq_true, Bool.and_eq_true, decide_eq_true_eq, beq_iff_eq, Char.le_def, ge_iff_le]
  tauto

theorem isName_iff {s : String} :
    Variable.isName s.toList = true ↔ s ≠ "" ∧ ∀ c ∈ s.toList, NameChar c := by
  simp [Variable.isName, isNameChar_iff]

theorem not_nameChar_dot : ¬NameChar '.' := by
  rw [← isNameChar_iff]
  decide

/-- The path is read from just what writes it. -/
theorem writesPath_iff {v : Variable} : WritesPath body v ↔ Variable.ofMarkup? body = some v := by
  constructor
  · intro h
    have hdot : ∀ seg ∈ (v.name :: v.members).map String.toList, '.' ∉ seg := by
      intro seg hseg hmem
      obtain ⟨s, hs, rfl⟩ := List.mem_map.mp hseg
      exact not_nameChar_dot ((h.names s hs).2 '.' hmem)
    have hsplit : body.splitOn '.' = (v.name :: v.members).map String.toList := by
      rw [h.body]
      exact List.splitOn_intercalate '.' hdot (by simp)
    have hall : ((v.name :: v.members).map String.toList).all Variable.isName = true := by
      simp only [List.all_map, List.all_eq_true, Function.comp_apply]
      exact fun s hs => isName_iff.mpr (h.names s hs)
    rw [Variable.ofMarkup?, hsplit, List.map_cons]
    rw [List.map_cons] at hall
    simp only [hall, if_true, String.ofList_toList, List.map_map]
    simp
  · intro h
    rw [Variable.ofMarkup?] at h
    rcases hsplit : body.splitOn '.' with _ | ⟨name, members⟩
    · rw [hsplit] at h
      cases h
    · rw [hsplit] at h
      simp only at h
      split at h
      · rename_i hall
        cases h
        have hsegments : (String.ofList name :: members.map String.ofList).map String.toList = name :: members := by
          simp
        refine ⟨fun s hs => isName_iff.mp (List.all_eq_true.mp hall _ ?_), ?_⟩
        · rw [← hsegments]
          exact List.mem_map_of_mem hs
        · rw [hsegments, ← hsplit, List.intercalate_splitOn]
      · cases h

/-! ## Tags -/

theorem isQuote_iff {c : Char} : Inclusion.isQuote c = true ↔ c = '\'' ∨ c = '"' := by
  simp [Inclusion.isQuote]

theorem isBlank_of_isQuote {c : Char} (h : Inclusion.isQuote c = true) : isBlank c = false := by
  rcases isQuote_iff.mp h with rfl | rfl <;> decide

theorem WritesInclusion.firstWord {tag : Inclusion} (h : WritesInclusion body tag) :
    FirstWord body ['i', 'n', 'c', 'l', 'u', 'd', 'e'] := by
  have hword : ['i', 'n', 'c', 'l', 'u', 'd', 'e'].any isBlank = false := by decide
  refine ⟨tag.gap.toList ++ tag.quote :: tag.key.toList ++ [tag.quote], by simp [h.body], fun c hc => ?_,
    fun c hc => ?_⟩
  · exact Bool.eq_false_iff.mpr (List.any_eq_false.mp hword c hc)
  rcases hgap : tag.gap.toList with _ | ⟨b, gap⟩
  · exact absurd (String.toList_eq_nil_iff.mp hgap) h.gap.1
  · rw [hgap] at hc
    cases hc
    exact h.gap.2 c (by simp [hgap])

/-- The quote and the name are read from just what writes them. -/
theorem unquote?_iff {cs key : List Char} {quote : Char} : Inclusion.unquote? cs = some (quote, key) ↔
    cs = quote :: key ++ [quote] ∧ Inclusion.isQuote quote = true ∧ key ≠ [] ∧ quote ∉ key := by
  constructor
  · intro h
    obtain rfl := Inclusion.markup_of_unquote? h
    simp only [List.cons_append, Inclusion.unquote?, List.dropLast_concat] at h
    split at h
    · rename_i hc
      simp only [Bool.and_eq_true, Bool.not_eq_true', List.isEmpty_eq_false_iff, List.contains_eq_mem,
        decide_eq_false_iff_not] at hc
      exact ⟨rfl, hc.1.1.1, hc.1.2, hc.2⟩
    · cases h
  · rintro ⟨rfl, hquote, hkey, hfree⟩
    simp [Inclusion.unquote?, hquote, hkey, hfree]

/-- Behind the word `include`, the tag is read from just what writes it. -/
theorem writesInclusion_iff {tag : Inclusion} (hb : Trimmed body) (hw : Text.firstWord body = Inclusion.word) :
    WritesInclusion body tag ↔ Inclusion.ofMarkup? body = some tag := by
  constructor
  · intro h
    have hquote : Inclusion.isQuote tag.quote = true := isQuote_iff.mpr h.quote
    have hrest : body.drop Inclusion.word.length = tag.gap.toList ++ tag.quote :: tag.key.toList ++ [tag.quote] := by
      simp [h.body, Inclusion.word]
    have hquoted : Trimmed (tag.quote :: tag.key.toList ++ [tag.quote]) := by
      constructor
      · rintro c ⟨⟩
        exact isBlank_of_isQuote hquote
      · intro c hc
        rw [List.getLast?_concat] at hc
        cases hc
        exact isBlank_of_isQuote hquote
    have htrim : trim (body.drop Inclusion.word.length) = tag.quote :: tag.key.toList ++ [tag.quote] := by
      have hnone : ∀ c ∈ ([] : List Char), isBlank c = true := List.forall_mem_nil _
      have htrimmed := hquoted.trim_append h.gap.2 hnone
      rwa [List.append_nil, ← List.append_assoc, ← hrest] at htrimmed
    have hgap : (body.drop Inclusion.word.length).takeWhile isBlank = tag.gap.toList := by
      rw [hrest, List.append_assoc, List.takeWhile_append_of_pos h.gap.2, List.cons_append, List.takeWhile_cons,
        if_neg (by simp [isBlank_of_isQuote hquote]), List.append_nil]
    have hunquote : Inclusion.unquote? (tag.quote :: tag.key.toList ++ [tag.quote]) =
        some (tag.quote, tag.key.toList) :=
      unquote?_iff.mpr ⟨rfl, hquote, by simpa using h.key.1, h.key.2⟩
    rw [Inclusion.ofMarkup?]
    simp only [htrim, hunquote, hgap, Option.map_some, String.ofList_toList]
  · intro h
    have hmarkup := Inclusion.markup_of_ofMarkup? hb hw h
    obtain ⟨⟨quote, key⟩, hunquote, rfl⟩ := Option.map_eq_some_iff.mp h
    obtain ⟨-, hquote, hkey, hfree⟩ := unquote?_iff.mp hunquote
    refine ⟨hmarkup.symm, ⟨?_, ?_⟩, isQuote_iff.mp hquote, by simpa using hkey, by simpa using hfree⟩
    · -- a word that goes on into the quoted name would not be the word `include`
      intro hgap
      obtain ⟨rest, hbody, -, hblank⟩ := (firstWord_iff hb).mpr hw
      rw [← hmarkup, Inclusion.markup, hgap] at hbody
      simp only [String.toList_empty, List.append_nil, List.append_assoc, List.append_cancel_left_eq] at hbody
      have := hblank quote (by rw [← hbody]; rfl)
      rw [isBlank_of_isQuote hquote] at this
      cases this
    · intro c hc
      rw [String.toList_ofList] at hc
      exact List.all_eq_true.mp List.all_takeWhile c hc

end

/-! ## Reading pieces -/

section

variable {offset : Nat} {p : Piece} {ps : List Piece} {n : Node} {ns : List Node} {e : ParseError}

/-- A piece reads as the node that it writes. -/
theorem ofPiece_eq_ok_iff : Node.ofPiece offset p = .ok n ↔ Writes p n := by
  constructor
  · intro h
    rcases p with content | ⟨_ | _, raw⟩ | ⟨d, body⟩
    · cases h
      exact .text
    · simp only [Node.ofPiece, Node.ofMarkup] at h
      split at h
      · rename_i v hv
        cases h
        exact .output (trims_iff.mpr rfl) (writesPath_iff.mpr hv)
      · cases h
    · simp only [Node.ofPiece, Node.ofMarkup] at h
      split at h
      · rename_i hw
        split at h
        · rename_i tag htag
          cases h
          exact .inclusion (trims_iff.mpr rfl) ((writesInclusion_iff (trimmed_trim raw) hw).mpr htag)
        · cases h
      · cases h
    · cases h
  · intro h
    cases h with
    | text => rfl
    | output hb h =>
      obtain rfl := trims_iff.mp hb
      simp only [Node.ofPiece, Node.ofMarkup, writesPath_iff.mp h]
    | @inclusion raw body tag hb h =>
      obtain rfl := trims_iff.mp hb
      have hw : Text.firstWord (trim raw) = Inclusion.word := (firstWord_iff (trimmed_trim raw)).mp h.firstWord
      simp only [Node.ofPiece, Node.ofMarkup, if_pos hw, (writesInclusion_iff (trimmed_trim raw) hw).mp h]

/-- A piece that writes no node reads as its fault. -/
theorem ofPiece_eq_error_iff : Node.ofPiece offset p = .error e ↔ Faulty offset p e := by
  constructor
  · intro h
    rcases p with content | ⟨_ | _, raw⟩ | ⟨d, body⟩
    · cases h
    · simp only [Node.ofPiece, Node.ofMarkup] at h
      split at h
      · cases h
      · rename_i hv
        cases h
        refine .path (trims_iff.mpr rfl) fun v hpath => ?_
        rw [writesPath_iff.mp hpath] at hv
        cases hv
    · simp only [Node.ofPiece, Node.ofMarkup] at h
      split at h
      · rename_i hw
        split at h
        · cases h
        · rename_i htag
          cases h
          refine .inclusion (trims_iff.mpr rfl) ((firstWord_iff (trimmed_trim raw)).mpr hw) fun tag hwrites => ?_
          rw [(writesInclusion_iff (trimmed_trim raw) hw).mp hwrites] at htag
          cases htag
      · rename_i hw
        cases h
        exact .unknown (trims_iff.mpr rfl) ((firstWord_iff (trimmed_trim raw)).mpr rfl) hw
    · cases h
      exact .unclosed
  · intro h
    cases h with
    | unclosed => rfl
    | @path raw body hb h =>
      obtain rfl := trims_iff.mp hb
      have hv : Variable.ofMarkup? (trim raw) = none :=
        Option.eq_none_iff_forall_ne_some.mpr fun v hv => h v (writesPath_iff.mpr hv)
      simp only [Node.ofPiece, Node.ofMarkup, hv]
    | @inclusion raw body hb hw h =>
      obtain rfl := trims_iff.mp hb
      have hword : Text.firstWord (trim raw) = Inclusion.word := (firstWord_iff (trimmed_trim raw)).mp hw
      have htag : Inclusion.ofMarkup? (trim raw) = none :=
        Option.eq_none_iff_forall_ne_some.mpr fun tag htag =>
          h tag ((writesInclusion_iff (trimmed_trim raw) hword).mpr htag)
      simp only [Node.ofPiece, Node.ofMarkup, if_pos hword, htag]
    | @unknown raw body word hb hw h =>
      obtain rfl := trims_iff.mp hb
      have hword : Text.firstWord (trim raw) = word := (firstWord_iff (trimmed_trim raw)).mp hw
      simp only [Node.ofPiece, Node.ofMarkup, hword]
      exact if_neg h

/-- Pieces read as nodes if each of them does. -/
theorem ofPieces_eq_ok_iff : Node.ofPieces offset ps = .ok ns ↔ List.Forall₂ Writes ps ns := by
  induction ps generalizing offset ns with
  | nil => simp [Node.ofPieces, eq_comm]
  | cons p ps ih =>
    rw [Node.ofPieces, List.forall₂_cons_left_iff]
    constructor
    · intro h
      split at h
      · cases h
      · rename_i n hn
        split at h
        · cases h
        · rename_i ns' hns
          cases h
          exact ⟨n, ns', ofPiece_eq_ok_iff.mp hn, ih.mp hns, rfl⟩
    · rintro ⟨n, ns', hn, hns, rfl⟩
      simp only [ofPiece_eq_ok_iff.mpr hn, ih.mpr hns]

/-- Pieces read as the fault of the leftmost one that writes no node. -/
theorem ofPieces_eq_error_iff : Node.ofPieces offset ps = .error e ↔
    ∃ before p after nodes, ps = before ++ p :: after ∧ List.Forall₂ Writes before nodes ∧
      Faulty (offset + utf8Length (before.flatMap Piece.source)) p e := by
  induction ps generalizing offset with
  | nil => simp [Node.ofPieces]
  | cons p ps ih =>
    rw [Node.ofPieces]
    constructor
    · intro h
      split at h
      · rename_i e' he
        cases h
        exact ⟨[], p, ps, [], rfl, .nil, by simpa using ofPiece_eq_error_iff.mp he⟩
      · rename_i n hn
        split at h
        · rename_i e' he
          cases h
          obtain ⟨before, q, after, nodes, rfl, hbefore, hfault⟩ := ih.mp he
          refine ⟨p :: before, q, after, n :: nodes, rfl, .cons (ofPiece_eq_ok_iff.mp hn) hbefore, ?_⟩
          rw [List.flatMap_cons, utf8Length_append, ← Nat.add_assoc]
          exact hfault
        · cases h
    · rintro ⟨before, q, after, nodes, hps, hbefore, hfault⟩
      cases hbefore with
      | nil =>
        obtain ⟨rfl, rfl⟩ := List.cons.inj hps
        simp only [List.flatMap_nil, utf8Length_nil, Nat.add_zero] at hfault
        simp only [ofPiece_eq_error_iff.mpr hfault]
      | @cons p' n before nodes hn hbefore =>
        obtain ⟨rfl, rfl⟩ := List.cons.inj hps
        rw [List.flatMap_cons, utf8Length_append, ← Nat.add_assoc] at hfault
        simp only [ofPiece_eq_ok_iff.mpr hn, ih.mpr ⟨before, q, after, nodes, rfl, hbefore, hfault⟩]

end

/-- What a source reads as is what it says: the template of its nodes, or the fault of its leftmost faulty piece. -/
theorem parse_eq_iff (source : String) (r : Except ParseError Template) :
    Template.parse source = r ↔ Parses source r := by
  have hoffset : ∀ cs : List Char, (String.ofList cs).utf8ByteSize = utf8Length cs := fun cs => by
    rw [← utf8Length_toList, String.toList_ofList]
  have hparse : Template.parse source = r ↔ Node.ofPieces 0 (Piece.ofSource source.toList) = r.map Template.nodes := by
    rw [Template.parse]
    rcases Node.ofPieces 0 (Piece.ofSource source.toList) with e | nodes
    · cases r <;> simp [Except.map]
    · rcases r with e | t
      · simp [Except.map]
      · cases t
        simp [Except.map]
  rw [hparse]
  cases r with
  | ok t =>
    simp only [Except.map, ofPieces_eq_ok_iff, Parses, cut_iff]
    simp
  | error e =>
    simp only [Except.map, ofPieces_eq_error_iff, Parses, cut_iff, hoffset, Nat.zero_add]

end HybridTemplate.Grammar
