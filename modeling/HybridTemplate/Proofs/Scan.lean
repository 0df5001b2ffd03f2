import HybridTemplate.Template.Basic

/-!
# Scanning what was emitted

The scan looks at two adjacent characters at a time, so what it makes of a text depends on the delimiters that begin in
the text and on nothing else.

* `Nowhere` — no place in a text where a delimiter begins, the text seen with what follows it;
* `scan_outside_append`, `scan_inside_append` — the scan goes through such a text without a cut;
* `Inclusion.Legible` — the directive of the tag reads as the tag; so does every tag of a template that was parsed
  (`Inclusion.legible_of_parse`).
-/

namespace HybridTemplate

open Text

/-! ## Where delimiters begin -/

/-- `p` does not hold anywhere in `cs`, where it looks ahead into `after`. -/
def Nowhere (p : List Char → Bool) (cs after : List Char) : Prop :=
  ∀ pre post, cs = pre ++ post → post ≠ [] → p (post ++ after) = false

/-- Whether a text starts with a delimiter that opens a markup. -/
def opensMarkup : List Char → Bool
  | a :: b :: _ => (Delimiter.opened? a b).isSome
  | _ => false

/-- Whether a text starts with the delimiter that closes a markup. -/
def Delimiter.closes (d : Delimiter) : List Char → Bool
  | a :: b :: _ => d.isClosedBy a b
  | _ => false

section

variable {p : List Char → Bool} {a : Char} {as bs cs after : List Char}

theorem nowhere_nil : Nowhere p [] after := by
  intro pre post h hne
  exact absurd (List.append_eq_nil_iff.mp h.symm).2 hne

theorem nowhere_cons : Nowhere p (a :: cs) after ↔ p (a :: cs ++ after) = false ∧ Nowhere p cs after := by
  constructor
  · intro h
    refine ⟨h [] (a :: cs) rfl (List.cons_ne_nil a cs), fun pre post hcs hne => ?_⟩
    exact h (a :: pre) post (by rw [hcs, List.cons_append]) hne
  · rintro ⟨ha, h⟩ pre post hcs hne
    cases pre with
    | nil =>
      rw [List.nil_append] at hcs
      rw [← hcs]
      exact ha
    | cons c pre => exact h pre post (List.cons.inj hcs).2 hne

instance decidableNowhere (p : List Char → Bool) (after : List Char) : ∀ cs, Decidable (Nowhere p cs after)
  | [] => isTrue nowhere_nil
  | a :: cs =>
    haveI := decidableNowhere p after cs
    decidable_of_iff (p (a :: cs ++ after) = false ∧ Nowhere p cs after) nowhere_cons.symm

theorem nowhere_append : Nowhere p (as ++ bs) after ↔ Nowhere p as (bs ++ after) ∧ Nowhere p bs after := by
  induction as with
  | nil => simp [nowhere_nil]
  | cons a as ih => simp [nowhere_cons, ih, and_assoc]

end

/-! ## Texts without delimiters -/

namespace Piece

theorem scan_outside_append {met cs rest : List Char} (h : Nowhere opensMarkup cs rest) :
    scan (.outside met) (cs ++ rest) = scan (.outside (cs.reverse ++ met)) rest := by
  induction cs generalizing met with
  | nil => rfl
  | cons a cs ih =>
    obtain ⟨ha, h⟩ := nowhere_cons.mp h
    have hstep : scan (.outside met) (a :: (cs ++ rest)) = scan (.outside (a :: met)) (cs ++ rest) := by
      rw [List.cons_append] at ha
      rcases hr : cs ++ rest with _ | ⟨b, bs⟩
      · rfl
      · rw [hr] at ha
        rw [scan, Option.not_isSome_iff_eq_none.mp (Bool.eq_false_iff.mp ha)]
    rw [List.cons_append, hstep, ih h, List.reverse_cons, List.append_assoc]
    rfl

theorem scan_inside_append {d : Delimiter} {met cs rest : List Char} (h : Nowhere d.closes cs (d.closing ++ rest)) :
    scan (.inside d met) (cs ++ d.closing ++ rest) = markup d (met.reverse ++ cs) :: scan (.outside []) rest := by
  induction cs generalizing met with
  | nil => cases d <;> simp [scan, Delimiter.closing, Delimiter.isClosedBy]
  | cons a cs ih =>
    obtain ⟨ha, h⟩ := nowhere_cons.mp h
    obtain ⟨b, bs, hb⟩ : ∃ b bs, cs ++ d.closing ++ rest = b :: bs := by
      cases cs with
      | nil => cases d <;> exact ⟨_, _, rfl⟩
      | cons c cs => exact ⟨_, _, rfl⟩
    have hclosed : d.isClosedBy a b = false := by
      rw [List.cons_append, ← List.append_assoc, hb] at ha
      exact ha
    rw [List.cons_append, List.cons_append, hb, scan, if_neg (by rw [hclosed]; exact Bool.false_ne_true), ← hb, ih h]
    simp

/-- What has been read of a markup holds nothing that closes it. -/
def Mode.Open (cs : List Char) : Mode → Prop
  | outside _ => True
  | inside d met => Nowhere d.closes met.reverse cs

theorem closes_append {d : Delimiter} {post : List Char} (hne : post ≠ []) (a b : Char) (rest : List Char) :
    d.closes (post ++ a :: b :: rest) = d.closes (post ++ [a, b]) := by
  rcases post with _ | ⟨x, _ | ⟨y, post⟩⟩
  · exact absurd rfl hne
  · rfl
  · rfl

theorem markup_notMem_flush (d : Delimiter) (body met : List Char) : markup d body ∉ flush met := by
  cases met <;> simp [flush]

/-- The body of a markup ends where its delimiter first closes. -/
theorem nowhere_closes_of_mem_scan {m : Mode} {cs : List Char} (hm : m.Open cs) {d : Delimiter} {body : List Char}
    (h : markup d body ∈ scan m cs) : Nowhere d.closes body d.closing := by
  fun_induction scan m cs with
  | case1 met => exact absurd h (markup_notMem_flush d body _)
  | case2 met a => exact absurd h (markup_notMem_flush d body _)
  | case3 met a b rest d' hd ih =>
    rcases List.mem_append.mp h with h | h
    · exact absurd h (markup_notMem_flush d body _)
    · exact ih nowhere_nil h
  | case4 met a b rest hd ih => exact ih trivial h
  | case5 d' met => simp at h
  | case6 d' met a => simp at h
  | case7 d' met a b rest hd ih =>
    rcases List.mem_cons.mp h with h | h
    · obtain ⟨rfl, rfl⟩ := Piece.markup.inj h
      intro pre post hpre hne
      rw [Delimiter.closing_of_isClosedBy hd, ← closes_append hne a b rest]
      exact hm pre post hpre hne
    · exact ih trivial h
  | case8 d' met a b rest hd ih =>
    refine ih ?_ h
    show Nowhere d'.closes (a :: met).reverse (b :: rest)
    rw [List.reverse_cons, nowhere_append]
    refine ⟨hm, nowhere_cons.mpr ⟨Bool.eq_false_iff.mpr hd, nowhere_nil⟩⟩

end Piece

/-! ## Blanks around a text -/

namespace Text

/-- The text neither starts nor ends with a blank. -/
structure Trimmed (cs : List Char) : Prop where
  head : ∀ c ∈ cs.head?, isBlank c = false
  last : ∀ c ∈ cs.getLast?, isBlank c = false

theorem head_trimLeft (cs : List Char) : ∀ c ∈ (trimLeft cs).head?, isBlank c = false := by
  intro c hc
  have h := List.head?_dropWhile_not isBlank cs
  rw [trimLeft] at hc
  rw [Option.mem_def.mp hc] at h
  exact h

theorem trimLeft_of_head {cs : List Char} (h : ∀ c ∈ cs.head?, isBlank c = false) : trimLeft cs = cs := by
  cases cs with
  | nil => rfl
  | cons c cs => rw [trimLeft, List.dropWhile_cons, if_neg (by rw [h c rfl]; exact Bool.false_ne_true)]

theorem trimRight_of_last {cs : List Char} (h : ∀ c ∈ cs.getLast?, isBlank c = false) : trimRight cs = cs := by
  have hrev : trimLeft cs.reverse = cs.reverse := trimLeft_of_head (by rwa [List.head?_reverse])
  rw [trimLeft] at hrev
  rw [trimRight, hrev, List.reverse_reverse]

theorem last_trimRight (cs : List Char) : ∀ c ∈ (trimRight cs).getLast?, isBlank c = false := by
  rw [trimRight, List.getLast?_reverse]
  exact head_trimLeft cs.reverse

theorem trimmed_trim (cs : List Char) : Trimmed (trim cs) where
  head := by
    intro c hc
    obtain ⟨post, hpost, -⟩ := exists_eq_trimRight_append (trimLeft cs)
    refine head_trimLeft cs c ?_
    rw [hpost]
    rcases ht : trimRight (trimLeft cs) with _ | ⟨x, xs⟩
    · rw [trim, ht] at hc
      cases hc
    · rw [trim, ht] at hc
      exact hc
  last := last_trimRight _

theorem trimLeft_append {pre : List Char} (hpre : ∀ c ∈ pre, isBlank c = true) (cs : List Char) :
    trimLeft (pre ++ cs) = trimLeft cs :=
  List.dropWhile_append_of_pos hpre

theorem trimRight_append (cs : List Char) {post : List Char} (hpost : ∀ c ∈ post, isBlank c = true) :
    trimRight (cs ++ post) = trimRight cs := by
  have hrev : ∀ c ∈ post.reverse, isBlank c = true := fun c hc => hpost c (List.mem_reverse.mp hc)
  rw [trimRight, List.reverse_append, List.dropWhile_append_of_pos hrev, trimRight]

/-- Blanks around a text make no difference. -/
theorem Trimmed.trim_append {cs pre post : List Char} (h : Trimmed cs) (hpre : ∀ c ∈ pre, isBlank c = true)
    (hpost : ∀ c ∈ post, isBlank c = true) : trim (pre ++ cs ++ post) = cs := by
  rw [trim, List.append_assoc, trimLeft_append hpre]
  cases cs with
  | nil =>
    have hblank : trimLeft ([] ++ post) = trimLeft [] := by
      rw [List.nil_append, ← List.append_nil post, trimLeft_append hpost]
    rw [hblank]
    rfl
  | cons c cs =>
    have hhead : ∀ x ∈ (c :: cs ++ post).head?, isBlank x = false := h.head
    rw [trimLeft_of_head hhead, trimRight_append _ hpost, trimRight_of_last h.last]

end Text

/-! ## Blanks around a body -/

theorem isBlank_space : isBlank ' ' = true := by
  decide

namespace Delimiter

theorem closes_blank (d : Delimiter) (cs : List Char) : d.closes (' ' :: cs) = false := by
  cases d <;> cases cs <;> simp [closes, isClosedBy, closing]

/-- A blank in front of what follows closes nothing. -/
theorem nowhere_closes_blank {d : Delimiter} {cs after after' : List Char} (h : Nowhere d.closes cs after) :
    Nowhere d.closes cs (' ' :: after') := by
  intro pre post hpre hne
  rcases post with _ | ⟨x, _ | ⟨y, post⟩⟩
  · exact absurd rfl hne
  · cases d <;> simp [closes, isClosedBy, closing]
  · exact h pre (x :: y :: post) hpre hne

/-- A body that holds nothing that closes it can as well be written between single blanks. -/
theorem nowhere_closes_trim {d : Delimiter} {raw after : List Char} (h : Nowhere d.closes raw after)
    (after' : List Char) : Nowhere d.closes (' ' :: trim raw ++ [' ']) after' := by
  obtain ⟨pre, post, hraw, -, -⟩ := exists_eq_append_trim raw
  rw [hraw, List.append_assoc, nowhere_append, nowhere_append] at h
  rw [List.cons_append, nowhere_cons, nowhere_append]
  exact ⟨d.closes_blank _, nowhere_closes_blank h.2.1, nowhere_cons.mpr ⟨d.closes_blank _, nowhere_nil⟩⟩

end Delimiter

theorem Text.trim_spaced (raw : List Char) : trim (' ' :: trim raw ++ [' ']) = trim raw := by
  have hblank : ∀ c ∈ [' '], isBlank c = true := by simp [isBlank_space]
  exact (trimmed_trim raw).trim_append hblank hblank

/-! ## Tags that read as they are written -/

namespace Inclusion

theorem markup_of_unquote? {cs key : List Char} {quote : Char} (h : unquote? cs = some (quote, key)) :
    cs = quote :: key ++ [quote] := by
  cases cs with
  | nil => cases h
  | cons c rest =>
    simp only [unquote?] at h
    split at h
    · rename_i hc
      simp only [Bool.and_eq_true, beq_iff_eq] at hc
      obtain ⟨rfl, rfl⟩ := Prod.mk.inj (Option.some.inj h)
      obtain ⟨⟨⟨-, hlast⟩, -⟩, -⟩ := hc
      obtain ⟨key, rfl⟩ := List.getLast?_eq_some_iff.mp hlast
      rw [List.dropLast_concat, List.cons_append]
    · cases h

/-- A tag has just the markup that it was read from. -/
theorem markup_of_ofMarkup? {body : List Char} {tag : Inclusion} (hb : Trimmed body)
    (hw : firstWord body = word) (h : ofMarkup? body = some tag) : tag.markup = body := by
  rw [firstWord, trimLeft_of_head hb.head] at hw
  obtain ⟨rest, rfl⟩ : ∃ rest, body = word ++ rest :=
    ⟨body.dropWhile fun c => !isBlank c, by rw [← hw, List.takeWhile_append_dropWhile]⟩
  rw [ofMarkup?, List.drop_left] at h
  obtain ⟨⟨quote, key⟩, hq, rfl⟩ := Option.map_eq_some_iff.mp h
  have hrest : rest = rest.takeWhile isBlank ++ trimLeft rest := List.takeWhile_append_dropWhile.symm
  -- the blanks behind the text would be blanks behind the whole markup
  have htrim : trim rest = trimLeft rest := by
    refine trimRight_of_last fun c hc => hb.last c ?_
    rw [hrest, ← List.append_assoc, List.getLast?_append, Option.mem_def.mp hc]
    rfl
  have hquoted := markup_of_unquote? hq
  rw [htrim] at hquoted
  simp only [markup, String.toList_ofList]
  conv => rhs; rw [hrest, hquoted]
  simp

/-- Written as a directive, the tag reads as itself. -/
structure Legible (tag : Inclusion) : Prop where
  reads : Node.ofMarkup .tag (' ' :: tag.markup ++ [' ']) = .ok (.inclusion tag)
  closes : Nowhere Delimiter.tag.closes (' ' :: tag.markup ++ [' ']) Delimiter.tag.closing

/-- A tag that was read from the body of a markup is legible. -/
theorem legible_of_ofMarkup {body : List Char} {tag : Inclusion}
    (hc : Nowhere Delimiter.tag.closes body Delimiter.tag.closing)
    (h : Node.ofMarkup .tag body = .ok (.inclusion tag)) : tag.Legible := by
  have hb := trimmed_trim body
  have hread : firstWord (trim body) = word ∧ ofMarkup? (trim body) = some tag := by
    simp only [Node.ofMarkup] at h
    split at h
    · rename_i hw
      split at h
      · rename_i i hi
        cases h
        exact ⟨hw, hi⟩
      · cases h
    · cases h
  have hmarkup := markup_of_ofMarkup? hb hread.1 hread.2
  constructor
  · rw [hmarkup]
    simp only [Node.ofMarkup, trim_spaced] at h ⊢
    exact h
  · rw [hmarkup]
    exact Delimiter.nowhere_closes_trim hc _

end Inclusion

/-! ## Tags of parsed templates -/

namespace Node

theorem exists_piece_of_mem_ofPieces {offset : Nat} {ps : List Piece} {ns : List Node} (h : ofPieces offset ps = .ok ns)
    {n : Node} (hn : n ∈ ns) : ∃ p ∈ ps, ∃ offset, ofPiece offset p = .ok n := by
  induction ps generalizing offset ns with
  | nil =>
    cases h
    cases hn
  | cons p ps ih =>
    rw [ofPieces] at h
    split at h
    · cases h
    · rename_i m hm
      split at h
      · cases h
      · rename_i ms hms
        cases h
        rcases List.mem_cons.mp hn with rfl | hn
        · exact ⟨p, List.mem_cons_self, offset, hm⟩
        · obtain ⟨q, hq, hq'⟩ := ih hms hn
          exact ⟨q, List.mem_cons_of_mem p hq, hq'⟩

/-- Only a tag reads as an inclusion. -/
theorem ofPiece_eq_inclusion {offset : Nat} {p : Piece} {tag : Inclusion} (h : ofPiece offset p = .ok (inclusion tag)) :
    ∃ body, p = .markup .tag body ∧ ofMarkup .tag body = .ok (inclusion tag) := by
  cases p with
  | text content => cases h
  | unclosed d body => cases h
  | markup d body =>
    cases d with
    | tag => exact ⟨body, rfl, h⟩
    | output =>
      simp only [ofPiece, ofMarkup] at h
      split at h <;> cases h

end Node

/-- The tags of a template that was parsed are legible. -/
theorem Inclusion.legible_of_parse {source : String} {t : Template} (h : Template.parse source = .ok t)
    {tag : Inclusion} (hm : .inclusion tag ∈ t.nodes) : tag.Legible := by
  rw [Template.parse] at h
  split at h
  · cases h
  · rename_i nodes hnodes
    cases h
    obtain ⟨p, hp, offset, hpiece⟩ := Node.exists_piece_of_mem_ofPieces hnodes hm
    obtain ⟨body, rfl, hbody⟩ := Node.ofPiece_eq_inclusion hpiece
    exact legible_of_ofMarkup (Piece.nowhere_closes_of_mem_scan (m := .outside []) trivial hp) hbody

end HybridTemplate
