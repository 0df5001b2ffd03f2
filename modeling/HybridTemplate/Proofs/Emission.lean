import HybridTemplate.Proofs.Grammar
import HybridTemplate.Proofs.Interception

/-!
# Templates read back from what they emit

A template that was parsed emits a source of its own: texts as they are, outputs and tags with one blank on either side
of their bodies. This source says the same nodes again.

* `Writes.spaced` — what a markup says does not depend on the blanks around its body, and this is how it is emitted;
* `Cut.emit` — the source that the nodes of a cut emit is cut at the same places. It begins with the same two characters
  as the source that was read, and no markup can begin in a text that did not begin there before;
* `parse_emit_of_parse` — so the template reads back, and each of its tags does by itself, also where the cache-aware
  layer leaves it in place of a text.
-/

namespace HybridTemplate

open Text

namespace Grammar

/-- A source reads as a template if the pieces of its cut write the nodes. -/
theorem parse_eq_ok_iff {source : String} {t : Template} :
    Template.parse source = .ok t ↔ ∃ ps, Cut source.toList ps ∧ List.Forall₂ Writes ps t.nodes := by
  have hmap : ∀ r : Except ParseError (List Node), r.map Template.mk = .ok t ↔ r = .ok t.nodes := by
    rintro (e | nodes)
    · simp [Except.map]
    · cases t
      simp [Except.map]
  simp only [Template.parse_eq_map, hmap, ofPieces_eq_ok_iff, cut_iff, exists_eq_left']

/-- A source reads as the fault of the leftmost piece of its cut that writes no node. -/
theorem parse_eq_error_iff {source : String} {e : ParseError} :
    Template.parse source = .error e ↔ ∃ before p after nodes, Cut source.toList (before ++ p :: after) ∧
      List.Forall₂ Writes before nodes ∧ Faulty (utf8Length (before.flatMap Piece.source)) p e := by
  have hmap : ∀ r : Except ParseError (List Node), r.map Template.mk = .error e ↔ r = .error e := by
    rintro (e | nodes) <;> simp [Except.map]
  simp only [Template.parse_eq_map, hmap, ofPieces_eq_error_iff, cut_iff, Nat.zero_add]

/-! ## What comes after a text -/

/-- Marks of two characters see no more than two characters of what follows. -/
theorem noneBegins_congr {marks : List (List Char)} {cs after after' : List Char}
    (hmarks : ∀ mark ∈ marks, mark.length = 2) (hafter : after.take 2 = after'.take 2)
    (h : NoneBegins marks cs after) : NoneBegins marks cs after' := by
  intro pre post hcs hne mark hm hbegins
  refine h pre post hcs hne mark hm ?_
  rw [List.prefix_iff_eq_take, hmarks mark hm] at hbegins ⊢
  -- of the two characters, as many are left for what follows as the text does not have
  have htake : ∀ as : List Char, (post ++ as).take 2 = post.take 2 ++ (as.take 2).take (2 - post.length) := by
    intro as
    rw [List.take_append, List.take_take, Nat.min_eq_left (Nat.sub_le 2 _)]
  rw [htake, hafter, ← htake]
  exact hbegins

theorem length_of_mem_openings {mark : List Char} (hm : mark ∈ openings) : mark.length = 2 := by
  simp only [openings, List.mem_cons, List.not_mem_nil, or_false] at hm
  rcases hm with rfl | rfl <;> rfl

theorem length_closing (d : Delimiter) : ∀ mark ∈ [d.closing], mark.length = 2 := by
  cases d <;> simp [Delimiter.closing]

theorem begins_iff_of_take {mark cs cs' : List Char} (hm : mark ∈ openings) (h : cs.take 2 = cs'.take 2) :
    mark <+: cs ↔ mark <+: cs' := by
  rw [List.prefix_iff_eq_take, List.prefix_iff_eq_take, length_of_mem_openings hm, h]

/-! ## Markups -/

/-- The source that a markup emits has one blank on either side of the body, and says the same node. -/
theorem Writes.spaced {d : Delimiter} {raw : List Char} {n : Node} (h : Writes (.markup d raw) n) :
    n.emit = d.opening ++ (' ' :: trim raw ++ [' ']) ++ d.closing ∧
      Writes (.markup d (' ' :: trim raw ++ [' '])) n := by
  cases h with
  | output hb h =>
    obtain rfl := trims_iff.mp hb
    refine ⟨?_, .output (trims_iff.mpr (trim_spaced raw)) h⟩
    have hbody : trim raw = Variable.path _ := h.body
    simp [Node.emit, hbody]
  | inclusion hb h =>
    obtain rfl := trims_iff.mp hb
    refine ⟨?_, .inclusion (trims_iff.mpr (trim_spaced raw)) h⟩
    have hbody : trim raw = Inclusion.markup _ := h.body
    simp [Node.emit, Inclusion.directive, hbody]

/-! ## Sources -/

/-- Nodes emit a source that is cut at the same places as the one they were read from. -/
theorem Cut.emit {cs : List Char} {ps : List Piece} {ns : List Node} (hc : Cut cs ps) (hw : List.Forall₂ Writes ps ns) :
    ∃ ps', Cut (ns.flatMap Node.emit) ps' ∧ List.Forall₂ Writes ps' ns ∧
      (ns.flatMap Node.emit).take 2 = cs.take 2 := by
  induction hc generalizing ns with
  | nil =>
    cases hw
    exact ⟨[], .nil, .nil, rfl⟩
  | @text content rest ps hne hfree hend _ ih =>
    cases hw with
    | cons hw hws =>
      obtain ⟨ps', hc', hw', htake⟩ := ih hws
      cases hw
      rw [List.flatMap_cons, Node.emit, String.toList_ofList]
      refine ⟨.text content :: ps', ?_, .cons .text hw', ?_⟩
      · refine .text hne (noneBegins_congr (fun _ => length_of_mem_openings) htake.symm hfree) ?_ hc'
        rcases hend with rfl | ⟨mark, hm, hbegins⟩
        · exact .inl (List.take_eq_nil_iff.mp htake |>.resolve_left two_ne_zero)
        · exact .inr ⟨mark, hm, (begins_iff_of_take hm htake).mpr hbegins⟩
      · rw [List.take_append, List.take_append]
        congr 1
        rw [← Nat.min_eq_left (Nat.sub_le 2 content.length), ← List.take_take, ← List.take_take, htake]
  | @markup d raw rest ps hfirst _ ih =>
    cases hw with
    | @cons _ n _ ns hw hws =>
      obtain ⟨ps', hc', hw', -⟩ := ih hws
      obtain ⟨hemit, hspaced⟩ := hw.spaced
      rw [List.flatMap_cons, hemit]
      have hspacedFirst : NoneBegins [d.closing] (' ' :: trim raw ++ [' ']) (d.closing ++ ns.flatMap Node.emit) :=
        noneBegins_closing_iff.mpr (Delimiter.nowhere_closes_trim (noneBegins_closing_iff.mp hfirst) _)
      refine ⟨_, .markup hspacedFirst hc', .cons hspaced hw', ?_⟩
      cases d <;> rfl
  | unclosed =>
    cases hw with
    | cons hw _ => cases hw

end Grammar

open World

/-- A template that was read from a source reads back from what it emits. So does each of its tags from its directive,
and the cache-aware layer gives just this for an inclusion whose frame was marked. -/
theorem Template.parse_emit_of_parse {source : String} {t : Template} (h : Template.parse source = .ok t) :
    Template.parse t.emit = .ok t ∧
      ∀ tag, .inclusion tag ∈ t.nodes → Template.parse tag.directive = .ok ⟨[.inclusion tag]⟩ ∧
        ∀ {ω σ : Type} (ctx : Context ω) (inner : RenderRun σ String) (w w₁ : World σ) (text : String) (frame : Frame),
          (w.registers.get ctx.registers).caching = true →
          (track ctx.registers tag.key inner).run w = (.ok (text, frame), w₁) → frame.cacheable = false →
          ∀ emitted w', (cacheAware ctx tag inner).run w = (.ok emitted, w') →
            Template.parse emitted = .ok ⟨[.inclusion tag]⟩ := by
  have hdirective : ∀ tag, .inclusion tag ∈ t.nodes → Template.parse tag.directive = .ok ⟨[.inclusion tag]⟩ := by
    intro tag htag
    have hfrozen : Frozen [.inclusion tag] := List.forall_mem_singleton.mpr (Inclusion.legible_of_parse h htag)
    have hparse : Template.parse (Template.emit ⟨[.inclusion tag]⟩) = .ok ⟨Node.merge [] [.inclusion tag]⟩ :=
      parse_emit trivial hfrozen
    simpa [Template.emit, Node.emit, Node.merge, Node.ofText] using hparse
  refine ⟨?_, fun tag htag => ⟨hdirective tag htag, ?_⟩⟩
  · obtain ⟨ps, hc, hw⟩ := Grammar.parse_eq_ok_iff.mp h
    obtain ⟨ps', hc', hw', -⟩ := hc.emit hw
    refine Grammar.parse_eq_ok_iff.mpr ⟨ps', ?_, hw'⟩
    rwa [Template.emit, String.toList_ofList]
  · intro ω σ ctx inner w w₁ text frame hcaching htrack hframe emitted w' hr
    rw [cacheAware_run, if_pos hcaching, Run.bind_run_of_ok htrack] at hr
    rw [Environment.yields_directive hframe _ _ _ hr]
    exact hdirective tag htag

namespace Sample

/-- Text that ends in a brace, a tag with braces and a foreign quote in its name, and markups with blanks of all kinds
or with none. -/
def patchwork : String :=
  "a\x7b \x7b% include\u2003\"it's \x7b\x7b 5% \x7d\x7d\" %\x7d\x7b\x7buser.name\n\x7d\x7d\x7b%include  'row'%\x7d"

/-- What the text says. -/
def patches : Template :=
  ⟨[.text "a\x7b ", .inclusion ⟨"\u2003", '"', "it's \x7b\x7b 5% \x7d\x7d"⟩, .output ⟨"user", ["name"]⟩,
    .inclusion ⟨"  ", '\'', "row"⟩]⟩

/-- The site in caching mode. -/
def trackingWorld : World Heap :=
  { world with registers := world.registers.modify ⟨0⟩ (·.setCaching true) }

/-- A row that reads dynamic data. -/
def dynamicRow : RenderRun Heap String := do
  modifyRegisters ⟨0⟩ Registers.markUncacheable
  return "Hi"

/-- All of it reads back; so does the directive that is left of the row. -/
theorem parse_emit_patchwork :
    Template.parse patchwork = .ok patches ∧ Template.parse patches.emit = .ok patches ∧
      ((cacheAware (context "Ann") ⟨"  ", '\'', "row"⟩ dynamicRow).run trackingWorld).1 =
        .ok "\x7b% include  'row' %\x7d" ∧
      Template.parse "\x7b% include  'row' %\x7d" = .ok ⟨[.inclusion ⟨"  ", '\'', "row"⟩]⟩ := by
  have hparse : Template.parse patchwork = .ok patches := by cbv
  have hemitted : ((cacheAware (context "Ann") ⟨"  ", '\'', "row"⟩ dynamicRow).run trackingWorld).1 =
      .ok "\x7b% include  'row' %\x7d" := by cbv
  obtain ⟨hemit, htags⟩ := Template.parse_emit_of_parse hparse
  obtain ⟨-, hlayer⟩ := htags ⟨"  ", '\'', "row"⟩ (by decide)
  refine ⟨hparse, hemit, hemitted, ?_⟩
  rcases hr : (cacheAware (context "Ann") ⟨"  ", '\'', "row"⟩ dynamicRow).run trackingWorld with ⟨r, w'⟩
  rw [hr] at hemitted
  obtain rfl : r = .ok _ := hemitted
  exact hlayer (context "Ann") dynamicRow trackingWorld _ "Hi" ⟨"row", false, ∅⟩ rfl rfl rfl _ w' hr

end Sample

end HybridTemplate
