import HybridTemplate.Proofs.Scan
import HybridTemplate.Proofs.Tracking

/-!
# Parsing the hybrid source

A render emits frozen texts and directives; when their source is parsed, texts that lie next to each other become one.

* `Clean` — no markup begins in a text of the nodes; `Frozen` — the nodes are texts and legible tags;
* `parse_emit` — then the source of the nodes parses, and gives the nodes with adjacent texts merged (`Node.merge`);
* `renderWith_merge` — which is no difference to a render.
-/

namespace HybridTemplate

/-- No markup begins in a text, where the text is seen with what is emitted after it. -/
def Clean : List Node → Prop
  | [] => True
  | .text content :: nodes => Nowhere opensMarkup content.toList (nodes.flatMap Node.emit) ∧ Clean nodes
  | _ :: nodes => Clean nodes

instance decidableClean : ∀ nodes, Decidable (Clean nodes)
  | [] => isTrue trivial
  | .text content :: nodes =>
    haveI := decidableClean nodes
    inferInstanceAs (Decidable (Nowhere opensMarkup content.toList (nodes.flatMap Node.emit) ∧ Clean nodes))
  | .output _ :: nodes => decidableClean nodes
  | .inclusion _ :: nodes => decidableClean nodes

/-- The node is a text or a legible tag. -/
def Node.Frozen : Node → Prop
  | text _ => True
  | output _ => False
  | inclusion tag => tag.Legible

/-- The nodes are texts and legible tags. -/
def Frozen (nodes : List Node) : Prop :=
  ∀ node ∈ nodes, node.Frozen

namespace Node

/-- A text, unless it is empty. -/
def ofText : List Char → List Node
  | [] => []
  | c :: cs => [text (String.ofList (c :: cs))]

/-- The nodes with adjacent texts in one, after the text `met`. -/
def merge (met : List Char) : List Node → List Node
  | [] => ofText met
  | text content :: nodes => merge (met ++ content.toList) nodes
  | output v :: nodes => ofText met ++ output v :: merge [] nodes
  | inclusion tag :: nodes => ofText met ++ inclusion tag :: merge [] nodes

theorem ofText_of_ne_nil {cs : List Char} (h : cs ≠ []) : ofText cs = [text (String.ofList cs)] := by
  cases cs with
  | nil => exact absurd rfl h
  | cons c cs => rfl

theorem ofPieces_flush {ps : List Piece} {ns : List Node} (h : ∀ offset, ofPieces offset ps = .ok ns) (offset : Nat)
    (met : List Char) : ofPieces offset (Piece.flush met ++ ps) = .ok (ofText met.reverse ++ ns) := by
  cases met with
  | nil => exact h offset
  | cons c cs =>
    rw [ofText_of_ne_nil (List.reverse_ne_nil_iff.mpr (List.cons_ne_nil c cs)), Piece.flush, List.singleton_append,
      ofPieces, ofPiece, h]
    · rfl
    · simp

end Node

theorem scan_directive (tag : Inclusion) (h : tag.Legible) (met rest : List Char) :
    Piece.scan (.outside met) (tag.directive.toList ++ rest) =
      Piece.flush met ++ .markup .tag (' ' :: tag.markup ++ [' ']) :: Piece.scan (.outside []) rest := by
  have hdirective : tag.directive.toList ++ rest =
      '{' :: '%' :: ((' ' :: tag.markup ++ [' ']) ++ Delimiter.tag.closing ++ rest) := by
    simp [Inclusion.directive, Delimiter.opening]
  have hcloses : Nowhere Delimiter.tag.closes (' ' :: tag.markup ++ [' ']) (Delimiter.tag.closing ++ rest) := by
    intro pre post hpre hne
    rw [← h.closes pre post hpre hne]
    exact Piece.closes_append hne '%' '}' rest
  have hopened : Delimiter.opened? '{' '%' = some .tag := rfl
  rw [hdirective, Piece.scan, hopened]
  simp only [Piece.scan_inside_append hcloses, List.reverse_nil, List.nil_append]

/-- Clean nodes are read back from their source, except that adjacent texts are merged. -/
theorem ofPieces_scan_emit {nodes : List Node} (hc : Clean nodes) (hf : Frozen nodes) (offset : Nat) (met : List Char) :
    Node.ofPieces offset (Piece.scan (.outside met) (nodes.flatMap Node.emit)) =
      .ok (Node.merge met.reverse nodes) := by
  induction nodes generalizing met offset with
  | nil =>
    have hflush : Node.ofPieces offset (Piece.flush met ++ []) = .ok (Node.ofText met.reverse ++ []) :=
      Node.ofPieces_flush (fun _ => rfl) offset met
    rwa [List.append_nil, List.append_nil] at hflush
  | cons node nodes ih =>
    have hf' : Frozen nodes := fun n hn => hf n (List.mem_cons_of_mem node hn)
    rw [List.flatMap_cons]
    cases node with
    | text content =>
      rw [Node.emit, Piece.scan_outside_append hc.1, ih hc.2 hf', List.reverse_append, List.reverse_reverse]
      rfl
    | output v => exact (hf _ List.mem_cons_self).elim
    | inclusion tag =>
      have htag : tag.Legible := hf _ List.mem_cons_self
      rw [Node.emit, scan_directive tag htag]
      refine Node.ofPieces_flush (fun offset => ?_) offset met
      rw [Node.ofPieces, Node.ofPiece, htag.reads, ih hc hf']
      rfl

theorem parse_emit {nodes : List Node} (hc : Clean nodes) (hf : Frozen nodes) :
    Template.parse (Template.emit ⟨nodes⟩) = .ok ⟨Node.merge [] nodes⟩ := by
  rw [Template.parse, Template.emit, String.toList_ofList, Piece.ofSource, ofPieces_scan_emit hc hf]
  rfl

/-! ## Rendering merged nodes -/

theorem frozen_append {as bs : List Node} (ha : Frozen as) (hb : Frozen bs) : Frozen (as ++ bs) := by
  intro node hn
  rcases List.mem_append.mp hn with h | h
  · exact ha node h
  · exact hb node h

/-- An expansion leaves texts and tags that were parsed. -/
theorem Expands.frozen {C : Catalog} {R : Variable → String → Bool → Prop} {π : TaintPolicy} {nodes : List Node}
    {e : Expansion} {m : Bool} (h : Expands C R π nodes e m) (hl : ∀ tag, .inclusion tag ∈ nodes → tag.Legible) :
    Frozen e.hybrid := by
  induction h with
  | nil =>
    intro node hn
    cases hn
  | text _ ih => exact List.forall_mem_cons.mpr ⟨trivial, ih fun tag ht => hl tag (List.mem_cons_of_mem _ ht)⟩
  | output _ _ ih => exact List.forall_mem_cons.mpr ⟨trivial, ih fun tag ht => hl tag (List.mem_cons_of_mem _ ht)⟩
  | @inclusion tag t d body nodes e m ht _ _ ihb ih =>
    have hrest := ih fun tag ht => hl tag (List.mem_cons_of_mem _ ht)
    cases d with
    | true => exact List.forall_mem_cons.mpr ⟨hl tag List.mem_cons_self, hrest⟩
    | false =>
      obtain ⟨source, -, hparse⟩ := ht
      exact frozen_append (ihb fun tag ht => Inclusion.legible_of_parse hparse ht) hrest

/-- The source that an expansion emits parses if its hybrid is clean. -/
theorem Expansion.parse_eq_ok {e : Expansion} {p : Precompiled} (hf : Frozen e.hybrid) (hc : Clean e.hybrid)
    (hp : p.source = e.emitted) : p.parse = .ok ⟨Node.merge [] e.hybrid⟩ := by
  rw [Precompiled.parse, hp, ← e.emit_hybrid]
  exact parse_emit hc hf

/-- The hybrid source of an expansion parses if it is clean. -/
theorem Expands.parse_eq_ok {C : Catalog} {R : Variable → String → Bool → Prop} {π : TaintPolicy} {source : String}
    {t : Template} {e : Expansion} {m : Bool} {p : Precompiled} (h : Expands C R π t.nodes e m)
    (ht : Template.parse source = .ok t) (hc : Clean e.hybrid) (hp : p.source = e.emitted) :
    p.parse = .ok ⟨Node.merge [] e.hybrid⟩ :=
  Expansion.parse_eq_ok (h.frozen fun _ => Inclusion.legible_of_parse ht) hc hp

namespace Environment

variable {ω σ : Type} [DataModel ω σ] (ctx : Context ω) (expand : Inclusion → RenderRun σ String)

theorem renderWith_append (as bs : List Node) :
    renderWith ctx expand (as ++ bs) = do
      let x ← renderWith ctx expand as
      return x ++ (← renderWith ctx expand bs) := by
  induction as with
  | nil => simp only [List.nil_append, renderWith, pure_bind, String.empty_append, bind_pure]
  | cons a as ih => simp only [List.cons_append, renderWith, ih, bind_assoc, pure_bind, String.append_assoc]

theorem renderWith_ofText (cs : List Char) :
    renderWith ctx expand (Node.ofText cs) = pure (String.ofList cs) := by
  cases cs <;> simp [Node.ofText, renderWith, renderNode]

/-- Merged texts make no difference to a render. -/
theorem renderWith_merge (met : List Char) (nodes : List Node) :
    renderWith ctx expand (Node.merge met nodes) =
      (fun x => String.ofList met ++ x) <$> renderWith ctx expand nodes := by
  induction nodes generalizing met with
  | nil => simp [Node.merge, renderWith_ofText, renderWith]
  | cons node nodes ih =>
    cases node with
    | text content => simp [Node.merge, ih, renderWith, renderNode, String.ofList_append, String.append_assoc]
    | output v =>
      simp [Node.merge, renderWith_append, renderWith_ofText, ih, renderWith, renderNode]
    | inclusion tag =>
      simp [Node.merge, renderWith_append, renderWith_ofText, ih, renderWith, renderNode]

theorem renderWith_merge_nil (nodes : List Node) :
    renderWith ctx expand (Node.merge [] nodes) = renderWith ctx expand nodes := by
  have hempty : (fun x => String.ofList [] ++ x) = id := funext fun _ => String.empty_append
  rw [renderWith_merge, hempty, id_map]

end Environment

end HybridTemplate
