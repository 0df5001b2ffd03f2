import HybridTemplate.Proofs.Emission
import HybridTemplate.Proofs.Seams

/-!
# Parsing one source after another

A source that is written behind another one is read as by itself, unless a brace at the end of the first opens a markup
together with the character that comes next.

* `Piece.join`, `Node.join` — rows of pieces and of nodes of which one follows the other: where a text meets a text, the
  two are one;
* `Cut.append` — two sources that are written one after the other are cut where each of them is;
* `parse_append` — so their nodes are joined, and a fault of the second one is met as many bytes later as the first has.
-/

namespace HybridTemplate

open Text

/-! ## Rows of pieces and of nodes -/

namespace Piece

/-- The pieces of one source and then those of another; a text at the end of the first goes on in a text of the second.
-/
def join : List Piece → List Piece → List Piece
  | [], qs => qs
  | [text content], text more :: qs => text (content ++ more) :: qs
  | p :: ps, qs => p :: join ps qs

theorem join_cons_of_ne_nil (p : Piece) {ps : List Piece} (h : ps ≠ []) (qs : List Piece) :
    join (p :: ps) qs = p :: join ps qs := by
  rw [join]
  intro content more qs' _ _ hps
  exact h hps

theorem join_markup (d : Delimiter) (body : List Char) (ps qs : List Piece) :
    join (markup d body :: ps) qs = markup d body :: join ps qs := by
  rw [join]
  intro content more qs' _ hp
  cases hp

theorem source_join (ps qs : List Piece) :
    (join ps qs).flatMap source = ps.flatMap source ++ qs.flatMap source := by
  fun_induction join ps qs with
  | case1 qs => rfl
  | case2 content more qs => simp [source]
  | case3 p ps qs _ ih => simp [ih]

end Piece

namespace Node

/-- The nodes of one source and then those of another; a text at the end of the first goes on in a text of the second.
-/
def join : List Node → List Node → List Node
  | [], ms => ms
  | [text content], text more :: ms => text (content ++ more) :: ms
  | n :: ns, ms => n :: join ns ms

theorem join_cons_of_ne_nil (n : Node) {ns : List Node} (h : ns ≠ []) (ms : List Node) :
    join (n :: ns) ms = n :: join ns ms := by
  rw [join]
  intro content more ms' _ _ hns
  exact h hns

end Node

/-! ## Cuts -/

theorem Seamed.of_append {as rest bs : List Char} (h : Seamed (as ++ rest) bs) : Seamed rest bs := by
  intro a ha
  refine h a ?_
  rw [List.getLast?_append, Option.mem_def.mp ha]
  rfl

namespace Grammar

/-- Marks of two characters that do not begin before a text of two characters or more, do not begin before that text and
more either. -/
theorem noneBegins_append {marks : List (List Char)} {cs after : List Char} (hmarks : ∀ mark ∈ marks, mark.length = 2)
    (hafter : 2 ≤ after.length) (h : NoneBegins marks cs after) (more : List Char) :
    NoneBegins marks cs (after ++ more) :=
  noneBegins_congr hmarks (List.take_append_of_le_length hafter).symm h

/-- A text at the end of a source goes on in what follows, or ends where a markup opens. -/
theorem Cut.text_append {content bs : List Char} {qs : List Piece} (hne : content ≠ [])
    (hfree : Undelimited content) (hseam : Seamed content bs) (hb : Cut bs qs) :
    Cut (content ++ bs) (Piece.join [.text content] qs) := by
  have hnone : NoneBegins openings content bs :=
    noneBegins_openings_iff.mpr (nowhere_opensMarkup_iff.mpr ⟨hfree, hseam⟩)
  have hopens : ∀ d : Delimiter, d.opening ∈ openings := fun d => by cases d <;> simp [openings]
  cases hb with
  | nil => exact .text hne hnone (.inl rfl) .nil
  | @text more rest qs _ hfree' hend h =>
    rw [Piece.join, ← List.append_assoc]
    refine .text (List.append_ne_nil_of_left_ne_nil hne more) ?_ hend h
    rw [noneBegins_openings_iff] at hnone hfree' ⊢
    exact nowhere_append.mpr ⟨hnone, hfree'⟩
  | @markup d body rest qs hfirst h =>
    refine .text hne hnone (.inr ⟨d.opening, hopens d, ?_⟩) (.markup hfirst h)
    simp
  | @unclosed d body hnever =>
    exact .text hne hnone (.inr ⟨d.opening, hopens d, List.prefix_append _ _⟩) (.unclosed hnever)

/-- Two sources one after the other are cut as each of them is, if no markup opens where they meet and none is left open
before. -/
theorem Cut.append {as bs : List Char} {ps qs : List Piece} (ha : Cut as ps) (hb : Cut bs qs)
    (hclosed : ∀ d body, .unclosed d body ∉ ps) (hseam : Seamed as bs) : Cut (as ++ bs) (Piece.join ps qs) := by
  induction ha with
  | nil => exact hb
  | @text content rest ps hne hfree hend h ih =>
    have hclosed' : ∀ d body, .unclosed d body ∉ ps := fun d body hm => hclosed d body (List.mem_cons_of_mem _ hm)
    rcases hend with rfl | ⟨mark, hm, hbegins⟩
    · obtain rfl : ps = [] := h.eq_ofSource
      rw [List.append_nil] at hseam ⊢
      have hundelimited := (nowhere_opensMarkup_iff.mp (noneBegins_openings_iff.mp hfree)).1
      exact Cut.text_append hne hundelimited hseam hb
    · have hrest : 2 ≤ rest.length := length_of_mem_openings hm ▸ hbegins.length_le
      have hps : ps ≠ [] := by
        rintro rfl
        cases h
        exact absurd hrest (by decide)
      rw [List.append_assoc, Piece.join_cons_of_ne_nil _ hps]
      have hfree' : NoneBegins openings content (rest ++ bs) :=
        noneBegins_append (fun _ => length_of_mem_openings) hrest hfree bs
      refine .text hne hfree' (.inr ⟨mark, hm, ?_⟩) (ih hclosed' hseam.of_append)
      exact hbegins.trans (List.prefix_append rest bs)
  | @markup d body rest ps hfirst h ih =>
    have hclosed' : ∀ d body, .unclosed d body ∉ ps := fun d body hm => hclosed d body (List.mem_cons_of_mem _ hm)
    have hfirst' : NoneBegins [d.closing] body (d.closing ++ (rest ++ bs)) := by
      rw [← List.append_assoc]
      exact noneBegins_append (length_closing d) (by simp [length_closing d]) hfirst bs
    rw [Piece.join_markup, List.append_assoc]
    exact .markup hfirst' (ih hclosed' hseam.of_append)
  | @unclosed d body hnone => exact absurd List.mem_cons_self (hclosed d body)

/-! ## Nodes and faults -/

/-- A markup that is not closed writes no node. -/
theorem unclosed_notMem_of_writes {ps : List Piece} {ns : List Node} (h : List.Forall₂ Writes ps ns) (d : Delimiter)
    (body : List Char) : .unclosed d body ∉ ps := by
  induction h with
  | nil => exact List.not_mem_nil
  | cons hw _ ih =>
    rintro (_ | ⟨_, hm⟩)
    · cases hw
    · exact ih hm

/-- Joined pieces write joined nodes. -/
theorem writes_join {ps qs : List Piece} {ns ms : List Node} (hp : List.Forall₂ Writes ps ns)
    (hq : List.Forall₂ Writes qs ms) : List.Forall₂ Writes (Piece.join ps qs) (Node.join ns ms) := by
  induction hp with
  | nil => exact hq
  | @cons p n ps ns hpn hps ih =>
    cases hps with
    | @cons p' n' ps ns hpn' hps =>
      rw [Piece.join_cons_of_ne_nil _ (List.cons_ne_nil p' ps), Node.join_cons_of_ne_nil _ (List.cons_ne_nil n' ns)]
      exact .cons hpn ih
    | nil =>
      -- the last node is a text just if the last piece is, and so are the first ones that come next
      cases hpn with
      | text =>
        cases hq with
        | nil => exact .cons .text .nil
        | cons hqm hqs =>
          cases hqm with
          | text =>
            rw [Piece.join, Node.join, ← String.ofList_append]
            exact .cons .text hqs
          | output hb h => exact .cons .text (.cons (.output hb h) hqs)
          | inclusion hb h => exact .cons .text (.cons (.inclusion hb h) hqs)
      | output hb h => exact .cons (.output hb h) hq
      | inclusion hb h => exact .cons (.inclusion hb h) hq

/-- A fault is the same fault wherever the source begins, but for its position. -/
theorem Faulty.shift {offset : Nat} {p : Piece} {e : ParseError} (h : Faulty offset p e) (k : Nat) :
    Faulty (k + offset) p (e.shift k) := by
  cases h with
  | unclosed => exact .unclosed
  | path hb h => exact .path hb h
  | inclusion hb hw h => exact .inclusion hb hw h
  | unknown hb hw h => exact .unknown hb hw h

/-- A faulty piece is no text, so it stays where it is. -/
theorem Faulty.join_append {offset : Nat} {p : Piece} {e : ParseError} (h : Faulty offset p e)
    (ps before after : List Piece) :
    Piece.join ps (before ++ p :: after) = Piece.join ps before ++ p :: after := by
  have hnotText : ∀ content, p ≠ .text content := by
    rintro content rfl
    cases h
  fun_induction Piece.join ps before with
  | case1 => rfl
  | case2 content more before => rfl
  | case3 q ps before hmeet ih =>
    rw [List.cons_append, ← ih, Piece.join]
    intro content more qs hqs hq hps
    cases before with
    | nil => exact hnotText more (List.cons.inj hqs).1
    | cons b before =>
      obtain ⟨rfl, -⟩ := List.cons.inj hqs
      exact hmeet content more before rfl hq hps

end Grammar

/-! ## Templates -/

namespace Template

open Grammar

/-- The template of two sources one after the other. -/
def append (t u : Template) : Template :=
  ⟨Node.join t.nodes u.nodes⟩

/-- A source behind another one says what it says by itself, unless the first one ends in a brace and the second begins
with a brace or a percent sign: the nodes of the two are joined, and of a fault only the position moves. -/
theorem parse_append {a b : String} {t : Template} (ha : Template.parse a = .ok t)
    (hseam : ¬(a.toList.getLast? = some '{' ∧ (b.toList.head? = some '{' ∨ b.toList.head? = some '%'))) :
    (∀ u, Template.parse b = .ok u → Template.parse (a ++ b) = .ok (t.append u)) ∧
      ∀ e, Template.parse b = .error e → Template.parse (a ++ b) = .error (e.shift a.utf8ByteSize) := by
  obtain ⟨ps, hps, hns⟩ := parse_eq_ok_iff.mp ha
  have hseamed : Seamed a.toList b.toList := by
    intro x hx y hy
    refine Option.not_isSome_iff_eq_none.mp fun hopens => hseam ?_
    obtain ⟨rfl, rfl | rfl⟩ := isSome_opened?_iff.mp hopens
    · exact ⟨hx, .inl hy⟩
    · exact ⟨hx, .inr hy⟩
  have happend : ∀ qs, Cut b.toList qs → Cut (a ++ b).toList (Piece.join ps qs) := by
    intro qs hqs
    rw [String.toList_append]
    exact hps.append hqs (unclosed_notMem_of_writes hns) hseamed
  constructor
  · intro u hu
    obtain ⟨qs, hqs, hms⟩ := parse_eq_ok_iff.mp hu
    exact parse_eq_ok_iff.mpr ⟨_, happend qs hqs, writes_join hns hms⟩
  · intro e he
    obtain ⟨before, p, after, nodes, hqs, hnodes, hfault⟩ := parse_eq_error_iff.mp he
    have hcut := happend _ hqs
    rw [hfault.join_append] at hcut
    refine parse_eq_error_iff.mpr ⟨_, p, after, _, hcut, writes_join hns hnodes, ?_⟩
    have hlength : utf8Length (ps.flatMap Piece.source) = a.utf8ByteSize := by
      rw [← cut_iff.mp hps, Piece.source_ofSource, utf8Length_toList]
    rw [Piece.source_join, utf8Length_append, hlength]
    exact hfault.shift _

end Template

namespace Sample

/-- A greeting that ends in a brace. -/
def salute : Template :=
  ⟨[.text "Ol\u00e1, ", .output ⟨"user", ["name"]⟩, .text " \x7b"]⟩

/-- The brace goes on in the text that comes next; an output that is left open there is reported at the byte where it
opens in the whole source. -/
theorem parse_append_salute :
    Template.parse "Ol\u00e1, \x7b\x7buser.name\x7d\x7d \x7b" = .ok salute ∧
      Template.parse ("Ol\u00e1, \x7b\x7buser.name\x7d\x7d \x7b" ++ "-\x7b%include 'row'%\x7d") =
        .ok ⟨[.text "Ol\u00e1, ", .output ⟨"user", ["name"]⟩, .text " \x7b-", .inclusion ⟨" ", '\'', "row"⟩]⟩ ∧
      Template.parse "-\x7b\x7b" = .error (.unclosed .output 1) ∧
      Template.parse ("Ol\u00e1, \x7b\x7buser.name\x7d\x7d \x7b" ++ "-\x7b\x7b") = .error (.unclosed .output 22) := by
  have hsalute : Template.parse "Ol\u00e1, \x7b\x7buser.name\x7d\x7d \x7b" = .ok salute := by cbv
  have hrow : Template.parse "-\x7b%include 'row'%\x7d" = .ok ⟨[.text "-", .inclusion ⟨" ", '\'', "row"⟩]⟩ := by cbv
  have hopen : Template.parse "-\x7b\x7b" = .error (.unclosed .output 1) := by cbv
  obtain ⟨hok, -⟩ := Template.parse_append (b := "-\x7b%include 'row'%\x7d") hsalute (by decide)
  obtain ⟨-, herror⟩ := Template.parse_append (b := "-\x7b\x7b") hsalute (by decide)
  exact ⟨hsalute, hok _ hrow, hopen, herror _ hopen⟩

end Sample

end HybridTemplate
