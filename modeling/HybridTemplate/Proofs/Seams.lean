import HybridTemplate.Proofs.Hybrid
import HybridTemplate.Proofs.Reparse

/-!
# Seams of the hybrid source

The pieces of a hybrid source are written one after the other with nothing between them, so a markup can begin where two
of them meet although there is none in either: a brace at the end of a text and a brace, or the `%` or the tag, that
comes next.

* `clean_iff` — markup begins in the texts of nodes just if it begins in a text by itself (`Undelimited`) or at a seam
  (`Seamless`);
* `parse_emit_iff` — texts and tags are read back as they were written just if they are clean;
* `frozen_outlineWithin` — whatever objects and sources do, a render leaves texts and tags that were parsed;
* `parse_precompile_iff` — so a hybrid source whose texts are free of delimiters reads as it should just if it has no
  bad seam.
-/

namespace HybridTemplate

open World

/-! ## Texts and what comes after them -/

/-- Neither of the delimiters that open a markup stands in the text. -/
def Undelimited (cs : List Char) : Prop :=
  ∀ d : Delimiter, ¬d.opening <:+: cs

/-- The last character of a text and the first one of what follows open no markup. -/
def Seamed (cs after : List Char) : Prop :=
  ∀ a ∈ cs.getLast?, ∀ b ∈ after.head?, Delimiter.opened? a b = none

/-- At the end of each text, no markup begins with what is emitted after it. -/
def Seamless : List Node → Prop
  | [] => True
  | .text content :: nodes => Seamed content.toList (nodes.flatMap Node.emit) ∧ Seamless nodes
  | _ :: nodes => Seamless nodes

theorem opened?_eq_none_iff {a b : Char} (cs : List Char) :
    Delimiter.opened? a b = none ↔ ∀ d : Delimiter, ¬d.opening <+: a :: b :: cs := by
  constructor
  · intro h d hd
    obtain ⟨x, y, hopening, hopened⟩ := Delimiter.opened?_opening d
    rw [hopening, List.cons_prefix_cons, List.cons_prefix_cons] at hd
    obtain ⟨rfl, rfl, -⟩ := hd
    cases h.symm.trans hopened
  · intro h
    refine Option.eq_none_iff_forall_ne_some.mpr fun d hd => h d ?_
    rw [Delimiter.opening_of_opened? hd]
    exact List.prefix_append [a, b] cs

theorem undelimited_of_length_lt {cs : List Char} (h : cs.length < 2) : Undelimited cs := by
  intro d hd
  obtain ⟨a, b, hopening, -⟩ := Delimiter.opened?_opening d
  have hlength := hd.length_le
  rw [hopening] at hlength
  exact absurd hlength (Nat.not_le.mpr h)

theorem undelimited_cons_cons {a b : Char} {cs : List Char} :
    Undelimited (a :: b :: cs) ↔ Delimiter.opened? a b = none ∧ Undelimited (b :: cs) := by
  rw [opened?_eq_none_iff cs]
  simp only [Undelimited, List.infix_cons_iff (a := a), not_or, forall_and]

/-- No markup begins in a text just if none does in the text by itself and none does at its end. -/
theorem nowhere_opensMarkup_iff {cs after : List Char} :
    Nowhere opensMarkup cs after ↔ Undelimited cs ∧ Seamed cs after := by
  induction cs with
  | nil => exact iff_of_true nowhere_nil ⟨undelimited_of_length_lt Nat.two_pos, by rintro a ⟨⟩⟩
  | cons a cs ih =>
    rw [nowhere_cons, ih]
    cases cs with
    | nil =>
      have hnil : Undelimited [] := undelimited_of_length_lt Nat.two_pos
      have hsingleton : Undelimited [a] := undelimited_of_length_lt Nat.one_lt_two
      cases after <;> simp [hnil, hsingleton, Seamed, opensMarkup]
    | cons b cs =>
      have hseam : Seamed (a :: b :: cs) after ↔ Seamed (b :: cs) after := by
        rw [Seamed, Seamed, List.getLast?_cons_cons]
      rw [undelimited_cons_cons, hseam, and_assoc]
      simp [opensMarkup]

/-- Nodes are clean just if no delimiter stands in one of their texts and none begins at a seam. -/
theorem clean_iff {nodes : List Node} :
    Clean nodes ↔ (∀ content, .text content ∈ nodes → Undelimited content.toList) ∧ Seamless nodes := by
  induction nodes with
  | nil => simp [Clean, Seamless]
  | cons node nodes ih =>
    cases node with
    | text content =>
      simp only [Clean, Seamless, nowhere_opensMarkup_iff, ih, List.mem_cons, Node.text.injEq, forall_eq_or_imp]
      tauto
    | output v => simpa [Clean, Seamless] using ih
    | inclusion tag => simpa [Clean, Seamless] using ih

/-! ## Reading back -/

/-- If markup begins in a text, there is a first place where it does. -/
theorem exists_first_of_not_nowhere {p : List Char → Bool} {cs after : List Char} (h : ¬Nowhere p cs after) :
    ∃ pre post, cs = pre ++ post ∧ post ≠ [] ∧ p (post ++ after) = true ∧ Nowhere p pre (post ++ after) := by
  induction cs with
  | nil => exact absurd nowhere_nil h
  | cons a cs ih =>
    rw [nowhere_cons, not_and_or] at h
    by_cases ha : p (a :: cs ++ after) = true
    · exact ⟨[], a :: cs, rfl, List.cons_ne_nil a cs, ha, nowhere_nil⟩
    · obtain ⟨pre, post, rfl, hne, hp, hpre⟩ := ih (h.resolve_left fun h => h (Bool.eq_false_iff.mpr ha))
      refine ⟨a :: pre, post, rfl, hne, hp, nowhere_cons.mpr ⟨?_, hpre⟩⟩
      rw [List.cons_append, ← List.append_assoc]
      exact Bool.eq_false_iff.mpr ha

namespace Node

/-- Merged nodes begin with the text that was met and what is there of it. -/
theorem merge_of_ne_nil {met : List Char} (h : met ≠ []) (nodes : List Node) :
    ∃ more rest, merge met nodes = .text (String.ofList (met ++ more)) :: rest := by
  induction nodes generalizing met with
  | nil => exact ⟨[], [], by rw [merge, ofText_of_ne_nil h, List.append_nil]⟩
  | cons node nodes ih =>
    cases node with
    | text content =>
      obtain ⟨more, rest, hmerge⟩ := ih (List.append_ne_nil_of_left_ne_nil h content.toList)
      exact ⟨content.toList ++ more, rest, by rw [merge, hmerge, List.append_assoc]⟩
    | output v => exact ⟨[], _, by rw [merge, ofText_of_ne_nil h, List.append_nil]; rfl⟩
    | inclusion tag => exact ⟨[], _, by rw [merge, ofText_of_ne_nil h, List.append_nil]; rfl⟩

/-- The body of a markup is read as an output or as an inclusion, never as a text. -/
theorem ofMarkup_ne_text (d : Delimiter) (body : List Char) (content : String) :
    ofMarkup d body ≠ .ok (text content) := by
  intro h
  cases d with
  | output =>
    simp only [ofMarkup] at h
    split at h <;> cases h
  | tag =>
    simp only [ofMarkup] at h
    split at h
    · split at h <;> cases h
    · cases h

/-- Pieces are read one by one. -/
theorem ofPieces_cons_eq_ok {offset : Nat} {p : Piece} {ps : List Piece} {n : Node} {ns : List Node}
    (h : ofPieces offset (p :: ps) = .ok (n :: ns)) : ofPiece offset p = .ok n ∧ ∃ k, ofPieces k ps = .ok ns := by
  rw [ofPieces] at h
  split at h
  · cases h
  · rename_i m hm
    split at h
    · cases h
    · rename_i ms hms
      cases h
      exact ⟨hm, _, hms⟩

end Node

/-- What was opened is read as a markup, or as a fault. -/
theorem Piece.exists_scan_inside (d : Delimiter) (met cs : List Char) : ∃ p ps, scan (.inside d met) cs = p :: ps ∧
    ∀ offset content, Node.ofPiece offset p ≠ .ok (.text content) := by
  induction cs generalizing met with
  | nil => exact ⟨_, _, rfl, nofun⟩
  | cons a cs ih =>
    rcases cs with _ | ⟨b, cs⟩
    · exact ⟨_, _, rfl, nofun⟩
    · rw [scan]
      split
      · exact ⟨_, _, rfl, fun _ => Node.ofMarkup_ne_text d _⟩
      · exact ih (a :: met)

/-- Where a markup begins in a text, the source does not read as that text. -/
theorem ofPieces_scan_opened {met cs : List Char} (h : opensMarkup cs = true) (offset : Nat) {more : List Char}
    (hmore : more ≠ []) (rest : List Node) :
    Node.ofPieces offset (Piece.scan (.outside met) cs) ≠
      .ok (.text (String.ofList (met.reverse ++ more)) :: rest) := by
  rcases cs with _ | ⟨a, _ | ⟨b, cs⟩⟩
  · cases h
  · cases h
  · obtain ⟨d, hd⟩ := Option.isSome_iff_exists.mp h
    obtain ⟨p, ps, hscan, hp⟩ := Piece.exists_scan_inside d [] cs
    rw [Piece.scan, hd]
    simp only [hscan]
    intro hread
    cases met with
    | nil => exact hp offset _ (Node.ofPieces_cons_eq_ok hread).1
    | cons c met =>
      have htext := (Node.ofPieces_cons_eq_ok hread).1
      rw [Node.ofPiece, Except.ok.injEq, Node.text.injEq, String.ofList_inj, List.self_eq_append_right] at htext
      exact hmore htext

/-- Nodes that are read back as they were written are clean. -/
theorem clean_of_ofPieces_scan_emit {nodes : List Node} (hf : Frozen nodes) {offset : Nat} {met : List Char}
    (h : Node.ofPieces offset (Piece.scan (.outside met) (nodes.flatMap Node.emit)) =
      .ok (Node.merge met.reverse nodes)) : Clean nodes := by
  induction nodes generalizing met offset with
  | nil => trivial
  | cons node nodes ih =>
    have hf' : Frozen nodes := fun n hn => hf n (List.mem_cons_of_mem node hn)
    rw [List.flatMap_cons] at h
    cases node with
    | text content =>
      rw [Node.emit, Node.merge] at h
      by_cases hc : Nowhere opensMarkup content.toList (nodes.flatMap Node.emit)
      · rw [Piece.scan_outside_append hc, ← content.toList.reverse_reverse, ← List.reverse_append,
          List.reverse_reverse] at h
        exact ⟨hc, ih hf' h⟩
      · obtain ⟨pre, post, hcontent, hne, hopens, hpre⟩ := exists_first_of_not_nowhere hc
        obtain ⟨more, rest, hmerge⟩ := Node.merge_of_ne_nil
          (List.append_ne_nil_of_right_ne_nil (met.reverse ++ pre) hne) nodes
        rw [hcontent, ← List.append_assoc, hmerge, List.append_assoc, List.append_assoc, Piece.scan_outside_append hpre,
          List.append_assoc, ← pre.reverse_reverse, ← List.append_assoc met.reverse, ← List.reverse_append,
          List.reverse_reverse] at h
        exact absurd h (ofPieces_scan_opened hopens offset (List.append_ne_nil_of_left_ne_nil hne more) rest)
    | output v => exact (hf _ List.mem_cons_self).elim
    | inclusion tag =>
      rw [Node.emit, scan_directive tag (hf _ List.mem_cons_self), Node.merge] at h
      have hrest : ∃ k, Node.ofPieces k (Piece.scan (.outside []) (nodes.flatMap Node.emit)) =
          .ok (Node.merge [] nodes) := by
        cases met with
        | nil => exact (Node.ofPieces_cons_eq_ok h).2
        | cons c met =>
          rw [Node.ofText_of_ne_nil (List.reverse_ne_nil_iff.mpr (List.cons_ne_nil c met))] at h
          obtain ⟨k, hk⟩ := (Node.ofPieces_cons_eq_ok h).2
          exact (Node.ofPieces_cons_eq_ok hk).2
      obtain ⟨k, hk⟩ := hrest
      exact ih hf' hk

theorem parse_emit_iff {nodes : List Node} (hf : Frozen nodes) :
    Template.parse (Template.emit ⟨nodes⟩) = .ok ⟨Node.merge [] nodes⟩ ↔ Clean nodes := by
  refine ⟨fun h => ?_, fun hc => parse_emit hc hf⟩
  rw [Template.parse, Template.emit, String.toList_ofList, Piece.ofSource] at h
  split at h
  · cases h
  · rename_i ns hns
    obtain rfl := Template.mk.inj (Except.ok.inj h)
    exact clean_of_ofPieces_scan_emit hf hns

/-! ## What merging keeps -/

namespace Node

theorem inclusions_ofText (cs : List Char) (nodes : List Node) :
    Template.inclusions ⟨ofText cs ++ nodes⟩ = Template.inclusions ⟨nodes⟩ := by
  cases cs <;> rfl

/-- Merging keeps the inclusions in order. -/
theorem inclusions_merge (met : List Char) (nodes : List Node) :
    Template.inclusions ⟨merge met nodes⟩ = Template.inclusions ⟨nodes⟩ := by
  induction nodes generalizing met with
  | nil => cases met <;> rfl
  | cons node nodes ih =>
    cases node with
    | text content => exact ih _
    | output v => rw [merge, inclusions_ofText]; exact ih []
    | inclusion tag =>
      rw [merge, inclusions_ofText]
      exact congrArg (tag :: ·) (ih [])

/-- Merging keeps texts and legible tags. -/
theorem frozen_merge {nodes : List Node} (h : HybridTemplate.Frozen nodes) (met : List Char) :
    HybridTemplate.Frozen (merge met nodes) := by
  have htext : ∀ cs, HybridTemplate.Frozen (ofText cs) := fun cs => by
    cases cs <;> simp [ofText, HybridTemplate.Frozen, Node.Frozen]
  induction nodes generalizing met with
  | nil => exact htext met
  | cons node nodes ih =>
    have hrest := ih fun n hn => h n (List.mem_cons_of_mem node hn)
    cases node with
    | text content => exact hrest _
    | output v => exact (h _ List.mem_cons_self).elim
    | inclusion tag => exact frozen_append (htext met) (List.forall_mem_cons.mpr ⟨h _ List.mem_cons_self, hrest []⟩)

/-- Merging keeps the source. -/
theorem emit_merge (met : List Char) (nodes : List Node) :
    (merge met nodes).flatMap emit = met ++ nodes.flatMap emit := by
  have htext : ∀ cs, (ofText cs).flatMap emit = cs := fun cs => by
    cases cs <;> simp [ofText, emit]
  induction nodes generalizing met with
  | nil => simp [merge, htext]
  | cons node nodes ih =>
    cases node with
    | text content => simp [merge, ih, emit]
    | output v => simp [merge, ih, htext]
    | inclusion tag => simp [merge, ih, htext]

end Node

/-! ## What a render can leave -/

namespace Environment

variable {ω σ : Type} {ctx : Context ω}

theorem yields_nested {α : Type} {Q : α → Prop} {body : RenderRun σ α} (hb : Run.Yields body Q) (limit : Nat) :
    Run.Yields (nested id limit body) Q := by
  intro w a w' hr
  obtain ⟨-, w₁, h₁, -⟩ := nested_eq_ok hr
  exact hb _ _ _ h₁

/-- An inclusion answers what its body expanded to, frozen or deferred. -/
theorem yields_outlineInclusion {Q : Expansion → Prop} {tag : Inclusion} {inner : RenderRun σ Expansion}
    (hi : Run.Yields inner Q) : Run.Yields (outlineInclusion ctx tag inner) fun r => Q r.2 := by
  have htrack : Run.Yields (track ctx.registers tag.key inner) fun r => Q r.1 := by
    rintro w ⟨a, frame⟩ w' hr
    obtain ⟨w₁, stack, h₁, -, -⟩ := track_eq_ok hr
    exact hi _ _ _ h₁
  refine (Run.yields_true _).bind fun r _ => ?_
  split
  · refine htrack.bind fun ⟨body, frame⟩ hbody => ?_
    dsimp only
    split
    · exact (Run.yields_true _).bind fun _ _ => (Run.yields_true _).bind fun _ _ => Run.yields_pure hbody
    · refine (Run.yields_true _).bind fun _ _ => (Run.yields_true _).bind fun _ _ => (Run.yields_true _).bind
        fun _ _ => (Run.yields_true _).bind fun _ _ => (Run.yields_true _).bind fun _ _ => Run.yields_pure hbody
  · exact hi.bind fun body hbody => Run.yields_pure hbody

variable [DataModel ω σ]

/-- Nodes leave texts and legible tags if their own tags are legible and the inclusions leave such nodes. -/
theorem frozen_outlineWith {expand : Inclusion → RenderRun σ (Bool × Expansion)}
    (hx : ∀ tag, Run.Yields (expand tag) fun r => Frozen r.2.hybrid) {nodes : List Node}
    (hn : ∀ tag, .inclusion tag ∈ nodes → tag.Legible) :
    Run.Yields (outlineWith ctx expand nodes) fun e => Frozen e.hybrid := by
  induction nodes with
  | nil => exact Run.yields_pure (by rintro node ⟨⟩)
  | cons node nodes ih =>
    have hrest := ih fun tag ht => hn tag (List.mem_cons_of_mem _ ht)
    cases node with
    | text content => exact hrest.bind fun e he => Run.yields_pure (List.forall_mem_cons.mpr ⟨trivial, he⟩)
    | output v =>
      exact (Run.yields_true _).bind fun value _ =>
        hrest.bind fun e he => Run.yields_pure (List.forall_mem_cons.mpr ⟨trivial, he⟩)
    | inclusion tag =>
      refine (hx tag).bind fun ⟨d, body⟩ hbody => hrest.bind fun e he => Run.yields_pure ?_
      cases d with
      | true => exact List.forall_mem_cons.mpr ⟨hn tag List.mem_cons_self, he⟩
      | false => exact frozen_append hbody he

theorem frozen_outlineTemplate {expand : Inclusion → RenderRun σ (Bool × Expansion)}
    (hx : ∀ tag, Run.Yields (expand tag) fun r => Frozen r.2.hybrid) (name : String) :
    Run.Yields (outlineTemplate ctx expand name) fun e => Frozen e.hybrid := by
  refine (Run.yields_true _).bind fun source _ => ?_
  split
  · rename_i t ht
    exact frozen_outlineWith hx fun tag => Inclusion.legible_of_parse ht
  · intro w e w' hr
    cases hr

theorem frozen_outlineWithin (levels : Nat) (tag : Inclusion) :
    Run.Yields (outlineWithin (σ := σ) ctx levels tag) fun r => Frozen r.2.hybrid := by
  induction levels generalizing tag with
  | zero =>
    refine yields_outlineInclusion (Q := fun e => Frozen e.hybrid) ?_
    intro w e w' hr
    cases hr
  | succ levels ih =>
    exact yields_outlineInclusion (Q := fun e => Frozen e.hybrid)
      (yields_nested (frozen_outlineTemplate ih tag.key) ctx.includeLimit)

theorem frozen_outline {source : String} {t : Template} (ht : Template.parse source = .ok t) :
    Run.Yields (outline (σ := σ) ctx t) fun e => Frozen e.hybrid := by
  refine (Run.yields_true _).bind fun _ _ => (Run.yields_true _).bind fun _ _ => (Run.yields_true _).bind
    fun levels _ => ?_
  exact frozen_outlineWith (fun tag => frozen_outlineWithin levels tag) fun tag => Inclusion.legible_of_parse ht

/-- The hybrid source of a page whose frozen texts are free of delimiters reads as its texts and the tags that stayed,
in their order, just if no markup begins where two of its pieces meet. The objects may do whatever they want. -/
theorem parse_precompile_iff {w : World σ} {source : String} {t : Template} {p : Precompiled}
    (ht : Template.parse source = .ok t) (hr : ((cached.precompile ctx t).run w).1 = .ok p) :
    ∃ e w', (outline ctx t).run w = (.ok e, w') ∧ p.source = Template.emit ⟨e.hybrid⟩ ∧
      Template.emit ⟨Node.merge [] e.hybrid⟩ = p.source ∧
      Template.inclusions ⟨Node.merge [] e.hybrid⟩ = Template.inclusions ⟨e.hybrid⟩ ∧ Frozen (Node.merge [] e.hybrid) ∧
      ((∀ content, .text content ∈ e.hybrid → Undelimited content.toList) →
        (p.parse = .ok ⟨Node.merge [] e.hybrid⟩ ↔ Seamless e.hybrid)) := by
  obtain ⟨e, w', ho, hsource, -⟩ := exists_outline_of_precompile hr
  rw [← e.emit_hybrid] at hsource
  have hfrozen : Frozen e.hybrid := frozen_outline ht w e w' ho
  refine ⟨e, w', ho, hsource, ?_, Node.inclusions_merge [] _, Node.frozen_merge hfrozen [], fun htexts => ?_⟩
  · rw [hsource, Template.emit, Node.emit_merge, List.nil_append, Template.emit]
  · rw [Precompiled.parse, hsource, parse_emit_iff hfrozen, clean_iff, and_iff_right htexts]

end Environment

namespace Sample

/-- The page of the sample site: no brace is in its frozen texts, so it has no bad seam. -/
theorem parse_precompile_page :
    (precompiled "Ann").parse = .ok ⟨[.text "Home: ", .inclusion ⟨" ", '\'', "row"⟩, .text "!"]⟩ := by
  obtain ⟨e, w', ho, -, -, -, -, hparse⟩ := Environment.parse_precompile_iff (w := world) parse_page
    (precompile_page "Ann")
  have hhybrid : ((Environment.outline (context "Ann") page).run world).1.map Expansion.hybrid =
      .ok [.text "Home", .text ": ", .inclusion ⟨" ", '\'', "row"⟩, .text "!"] := by
    cbv
  rw [ho] at hhybrid
  have hclean := clean_iff.mp (show Clean e.hybrid by rw [Except.ok.inj hhybrid]; decide)
  rw [(hparse hclean.1).mpr hclean.2, Except.ok.inj hhybrid]
  rfl

/-- The sample context with a brace for a title. -/
def braced : Context Scripted :=
  (context "Ann").assign "title" (.json (.string "\x7b"))

/-- The title, with a row right after it. -/
def heading : Template :=
  ⟨[.output ⟨"title", []⟩, .inclusion ⟨" ", '\'', "row"⟩]⟩

/-- No delimiter is in the title, and still the hybrid source does not parse: the brace opens an output together with
the tag of the row. -/
theorem parse_heading_fails :
    Template.parse "\x7b\x7b title \x7d\x7d\x7b% include 'row' %\x7d" = .ok heading ∧
      ((Environment.outline braced heading).run world).1.map Expansion.hybrid =
        .ok [.text "\x7b", .inclusion ⟨" ", '\'', "row"⟩] ∧
      Undelimited "\x7b".toList ∧
      ((Environment.cached.precompile braced heading).run world).1.map Precompiled.source =
        .ok "\x7b\x7b% include 'row' %\x7d" ∧
      Template.parse "\x7b\x7b% include 'row' %\x7d" = .error (.unclosed .output 0) := by
  refine ⟨?_, ?_, undelimited_of_length_lt (by decide), ?_, ?_⟩
  all_goals cbv

end Sample

end HybridTemplate
