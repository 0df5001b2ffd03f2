import HybridTemplate.Proofs.Delegates

/-!
# Expansions through layers of one's own

With layers between the cache-aware layer and the native strategy, the text of an inclusion is no longer that of its
template. `ExpandsThrough` says what comes out if the layers change no text in which anything is dynamic: they may
replace an inclusion, and make what they like of the text of a template in which nothing is deferred.

* `Expansion.silent` — what is left to say about a template whose text was made into another one;
* `Expansion.stored_stored` — to store an expansion again changes nothing, so a layer may ask any number of times;
* `ExpandsThrough` — the expansions of nodes; there is one, whatever the levels (`unique`), in which all that is marked
  or deferred is tainted (`quiet`, `tainted`).
-/

namespace HybridTemplate

open Registers (Handle)
open World

/-! ## Expansions in which nothing is deferred -/

namespace Expansion

/-- The inclusions of an expansion, without its texts. -/
def silent : Expansion → Expansion
  | nil => nil
  | text _ rest => rest.silent
  | output _ _ rest => rest.silent
  | inclusion tag d body rest => inclusion tag d body.silent rest.silent

theorem names_silent (e : Expansion) : e.silent.names = e.names := by
  induction e with
  | nil => rfl
  | text _ _ ih => exact ih
  | output _ _ _ ih => exact ih
  | inclusion tag d body rest ihb ih => rw [silent, names, names, ihb, ih]

theorem inlined_silent (e : Expansion) : e.silent.inlined = e.inlined := by
  induction e with
  | nil => rfl
  | text _ _ ih => exact ih
  | output _ _ _ ih => exact ih
  | inclusion tag d body rest ihb ih =>
    cases d with
    | true => exact ih
    | false => rw [silent, inlined, inlined, ihb, ih]

theorem plain_silent (e : Expansion) : e.silent.plain = "" := by
  induction e with
  | nil => rfl
  | text _ _ ih => exact ih
  | output _ _ _ ih => exact ih
  | inclusion tag d body rest ihb ih => rw [silent, plain, ihb, ih, String.empty_append]

/-- Nothing is deferred in a frozen inclusion and in what follows it. -/
theorem deferrals_inclusion_eq_nil {tag : Inclusion} {d : Bool} {body rest : Expansion}
    (h : (inclusion tag d body rest).deferrals = []) : d = false ∧ body.deferrals = [] ∧ rest.deferrals = [] := by
  cases d with
  | true => cases h
  | false => exact ⟨rfl, List.append_eq_nil_iff.mp h⟩

theorem deferrals_silent {e : Expansion} (h : e.deferrals = []) : e.silent.deferrals = [] := by
  induction e with
  | nil => rfl
  | text _ _ ih => exact ih h
  | output _ _ _ ih => exact ih h
  | inclusion tag d body rest ihb ih =>
    obtain ⟨rfl, hb, hr⟩ := deferrals_inclusion_eq_nil h
    rw [silent, deferrals, ihb hb, ih hr, List.append_nil]

theorem hybrid_silent {e : Expansion} (h : e.deferrals = []) : e.silent.hybrid = [] := by
  induction e with
  | nil => rfl
  | text _ _ ih => exact ih h
  | output _ _ _ ih => exact ih h
  | inclusion tag d body rest ihb ih =>
    obtain ⟨rfl, hb, hr⟩ := deferrals_inclusion_eq_nil h
    rw [silent, hybrid, ihb hb, ih hr, List.append_nil]

theorem emitted_silent {e : Expansion} (h : e.deferrals = []) : e.silent.emitted = "" := by
  rw [← emit_hybrid, hybrid_silent h]
  rfl

theorem emitted_eq_plain {e : Expansion} (h : e.deferrals = []) : e.emitted = e.plain := by
  induction e with
  | nil => rfl
  | text content _ ih => rw [emitted, plain, ih h]
  | output _ value _ ih => rw [emitted, plain, ih h]
  | inclusion tag d body rest ihb ih =>
    obtain ⟨rfl, hb, hr⟩ := deferrals_inclusion_eq_nil h
    rw [emitted, plain, ihb hb, ih hr]

/-! ### What is stored twice -/

variable (src : String → String)

theorem stored_of_deferrals_nil {e : Expansion} (h : e.deferrals = []) (a : Option Artifacts) : e.stored src a = a := by
  induction e generalizing a with
  | nil => rfl
  | text _ _ ih => exact ih h a
  | output _ _ _ ih => exact ih h a
  | inclusion tag d body rest ihb ih =>
    obtain ⟨rfl, hb, hr⟩ := deferrals_inclusion_eq_nil h
    rw [stored, ihb hb, ih hr]

theorem exists_stored_some (e : Expansion) (a : Artifacts) : ∃ b, e.stored src (some a) = some b := by
  induction e generalizing a with
  | nil => exact ⟨a, rfl⟩
  | text _ _ ih => exact ih a
  | output _ _ _ ih => exact ih a
  | inclusion tag d body rest ihb ih =>
    cases d with
    | true => exact ih _
    | false =>
      obtain ⟨b, hb⟩ := ihb a
      rw [stored, hb]
      exact ih b

/-- There are artifacts once anything is deferred. -/
theorem exists_stored {e : Expansion} (h : e.deferrals ≠ []) (a : Option Artifacts) : ∃ b, e.stored src a = some b := by
  induction e generalizing a with
  | nil => exact absurd rfl h
  | text _ _ ih => exact ih h a
  | output _ _ _ ih => exact ih h a
  | inclusion tag d body rest ihb ih =>
    cases d with
    | true => exact rest.exists_stored_some src _
    | false =>
      by_cases hb : body.deferrals = []
      · exact ih (fun hr => h (List.append_eq_nil_iff.mpr ⟨hb, hr⟩)) _
      · obtain ⟨b, hb⟩ := ihb hb a
        rw [stored, hb]
        exact rest.exists_stored_some src b

/-- Storing an expansion again changes nothing. -/
theorem stored_stored (e : Expansion) (a : Option Artifacts) : e.stored src (e.stored src a) = e.stored src a := by
  by_cases hd : e.deferrals = []
  · rw [stored_of_deferrals_nil src hd, stored_of_deferrals_nil src hd]
  · obtain ⟨b, hb⟩ := e.exists_stored src hd a
    obtain ⟨c, hc⟩ := e.exists_stored_some src b
    have htemplates := e.templates_stored src a
    have hresults := e.results_stored src a
    have htemplates' := e.templates_stored src (some b)
    have hresults' := e.results_stored src (some b)
    rw [hb] at htemplates hresults
    rw [hc] at htemplates' hresults'
    rw [hb, hc]
    refine congrArg some (Artifacts.ext (NameMap.ext_get? fun n => ?_) (NameMap.ext_get? fun n => ?_))
    · rw [Option.getD_some] at htemplates htemplates'
      rw [htemplates', Option.getD_some, htemplates]
      split <;> rfl
    · rw [Option.getD_some] at hresults hresults'
      rw [hresults', Option.getD_some, hresults, ← Option.or_assoc, Option.or_self]

end Expansion

/-! ## Expansions through a reply -/

/-- What nodes expand to with `l` levels left and `ρ` for the layers, and whether they mark the frame around them. A
text that the layers give of their own stands for its inclusion; so does the text that they make of a template in which
nothing is deferred. Of any other template they hand the text on. -/
inductive ExpandsThrough (C : Catalog) (R : Variable → String → Bool → Prop) (π : TaintPolicy)
    (ρ : Inclusion → Reply) : Nat → List Node → Expansion → Bool → Prop
  | nil {l : Nat} : ExpandsThrough C R π ρ l [] .nil false
  | text {l : Nat} {content : String} {nodes : List Node} {e : Expansion} {m : Bool}
      (h : ExpandsThrough C R π ρ l nodes e m) :
      ExpandsThrough C R π ρ l (.text content :: nodes) (.text content e) m
  | output {l : Nat} {v : Variable} {value : String} {b : Bool} {nodes : List Node} {e : Expansion} {m : Bool}
      (hv : R v value b) (h : ExpandsThrough C R π ρ l nodes e m) :
      ExpandsThrough C R π ρ l (.output v :: nodes) (.output v value e) (b || m)
  | replaced {l : Nat} {tag : Inclusion} {x : String} {nodes : List Node} {e : Expansion} {m : Bool}
      (hρ : ρ tag = .give (.ok x)) (h : ExpandsThrough C R π ρ l nodes e m) :
      ExpandsThrough C R π ρ l (.inclusion tag :: nodes) (.inclusion tag false (.text x .nil) e) m
  | reworked {l : Nat} {tag : Inclusion} {next : Except RenderError String → Reply} {t : Template} {body : Expansion}
      {x : String} {nodes : List Node} {e : Expansion} {m : Bool} (hρ : ρ tag = .ask next) (ht : C.Holds tag.key t)
      (hb : ExpandsThrough C R π ρ l t.nodes body false) (hd : body.deferrals = [])
      (hx : (ρ tag).meaning (.ok body.emitted) = .ok x) (h : ExpandsThrough C R π ρ (l + 1) nodes e m) :
      ExpandsThrough C R π ρ (l + 1) (.inclusion tag :: nodes) (.inclusion tag false (.text x body.silent) e) m
  | handed {l : Nat} {tag : Inclusion} {next : Except RenderError String → Reply} {t : Template} {d : Bool}
      {body : Expansion} {nodes : List Node} {e : Expansion} {m : Bool} (hρ : ρ tag = .ask next)
      (ht : C.Holds tag.key t) (hb : ExpandsThrough C R π ρ l t.nodes body d) (hd : d = true ∨ body.deferrals ≠ [])
      (hon : (ρ tag).HandsOn) (h : ExpandsThrough C R π ρ (l + 1) nodes e m) :
      ExpandsThrough C R π ρ (l + 1) (.inclusion tag :: nodes) (.inclusion tag d body e) ((d && π.spreads) || m)

/-- What a reply that asks and changes no text makes of a text. -/
theorem Reply.HandsOn.meaning {q : Reply} {next : Except RenderError String → Reply} (h : q.HandsOn)
    (hq : q = .ask next) (text : String) : q.meaning (.ok text) = .ok text := by
  subst hq
  exact h text

/-- The node is not dynamic, and includes nothing that is tainted under the propagating policy. -/
def Node.Static (C : Catalog) (dynamic : Variable → Prop) : Node → Prop
  | text _ => True
  | output v => ¬dynamic v
  | inclusion tag => ¬C.Tainted dynamic .propagating tag.key

theorem Catalog.Holds.static {C : Catalog} {dynamic : Variable → Prop} {n : String} {t : Template} (ht : C.Holds n t)
    (h : ¬C.Tainted dynamic .propagating n) : ∀ node ∈ t.nodes, node.Static C dynamic := by
  rw [Catalog.tainted_iff ht] at h
  intro node hm
  cases node with
  | text content => trivial
  | output v => exact fun hv => h (Or.inl ⟨v, hm, hv⟩)
  | inclusion tag => exact fun htaint => h (Or.inr ⟨rfl, tag, hm, htaint⟩)

namespace ExpandsThrough

variable {C : Catalog} {R : Variable → String → Bool → Prop} {π : TaintPolicy} {ρ : Inclusion → Reply} {l l' : Nat}
  {nodes : List Node} {e e' : Expansion} {m m' : Bool}

/-- An inclusion in front of other nodes. -/
theorem cons {tag : Inclusion} {d : Bool} {body : Expansion}
    (h₁ : ExpandsThrough C R π ρ l [.inclusion tag] (.inclusion tag d body .nil) m)
    (h₂ : ExpandsThrough C R π ρ l nodes e m') :
    ExpandsThrough C R π ρ l (.inclusion tag :: nodes) (.inclusion tag d body e) (m || m') := by
  cases h₁ with
  | replaced hρ h =>
    cases h
    exact .replaced hρ h₂
  | reworked hρ ht hb hd hx h =>
    cases h
    exact .reworked hρ ht hb hd hx h₂
  | handed hρ ht hb hd hon h =>
    cases h
    rw [Bool.or_false]
    exact .handed hρ ht hb hd hon h₂

/-- If outputs have one outcome only, there is one expansion, whatever the levels. -/
theorem unique (hR : ∀ v x y b c, R v x b → R v y c → x = y ∧ b = c) (h : ExpandsThrough C R π ρ l nodes e m)
    (h' : ExpandsThrough C R π ρ l' nodes e' m') : e = e' ∧ m = m' := by
  induction h generalizing l' e' m' with
  | nil => cases h'; exact ⟨rfl, rfl⟩
  | text _ ih =>
    cases h' with
    | text h' =>
      obtain ⟨rfl, rfl⟩ := ih h'
      exact ⟨rfl, rfl⟩
  | output hv _ ih =>
    cases h' with
    | output hv' h' =>
      obtain ⟨rfl, rfl⟩ := ih h'
      obtain ⟨rfl, rfl⟩ := hR _ _ _ _ _ hv hv'
      exact ⟨rfl, rfl⟩
  | replaced hρ _ ih =>
    cases h' with
    | replaced hρ' h' =>
      cases hρ.symm.trans hρ'
      obtain ⟨rfl, rfl⟩ := ih h'
      exact ⟨rfl, rfl⟩
    | reworked hρ' => cases hρ.symm.trans hρ'
    | handed hρ' => cases hρ.symm.trans hρ'
  | reworked hρ ht _ hd hx _ ihb ih =>
    cases h' with
    | replaced hρ' => cases hρ.symm.trans hρ'
    | reworked _ ht' hb' _ hx' h' =>
      obtain rfl := ht.unique ht'
      obtain ⟨rfl, -⟩ := ihb hb'
      cases hx.symm.trans hx'
      obtain ⟨rfl, rfl⟩ := ih h'
      exact ⟨rfl, rfl⟩
    | handed _ ht' hb' hd' =>
      obtain rfl := ht.unique ht'
      obtain ⟨rfl, rfl⟩ := ihb hb'
      exact absurd hd (hd'.resolve_left Bool.false_ne_true)
  | handed hρ ht _ hd _ _ ihb ih =>
    cases h' with
    | replaced hρ' => cases hρ.symm.trans hρ'
    | reworked _ ht' hb' hd' =>
      obtain rfl := ht.unique ht'
      obtain ⟨rfl, rfl⟩ := ihb hb'
      exact absurd hd' (hd.resolve_left Bool.false_ne_true)
    | handed _ ht' hb' _ _ h' =>
      obtain rfl := ht.unique ht'
      obtain ⟨rfl, rfl⟩ := ihb hb'
      obtain ⟨rfl, rfl⟩ := ih h'
      exact ⟨rfl, rfl⟩

/-- Where nothing is dynamic, nothing is marked and nothing deferred. -/
theorem quiet {dynamic : Variable → Prop} (hdynamic : ∀ v x b, R v x b → (b = true ↔ dynamic v))
    (h : ExpandsThrough C R π ρ l nodes e m) (hs : ∀ node ∈ nodes, node.Static C dynamic) :
    m = false ∧ e.deferrals = [] := by
  induction h with
  | nil => exact ⟨rfl, rfl⟩
  | text _ ih => exact ih fun node hm => hs node (List.mem_cons_of_mem _ hm)
  | output hv _ ih =>
    obtain ⟨rfl, hd⟩ := ih fun node hm => hs node (List.mem_cons_of_mem _ hm)
    refine ⟨?_, hd⟩
    rw [Bool.or_false, Bool.eq_false_iff]
    exact fun hb => hs _ List.mem_cons_self ((hdynamic _ _ _ hv).mp hb)
  | replaced _ _ ih => exact ih fun node hm => hs node (List.mem_cons_of_mem _ hm)
  | reworked _ _ _ hd _ _ _ ih =>
    obtain ⟨hm, hrest⟩ := ih fun node hm => hs node (List.mem_cons_of_mem _ hm)
    exact ⟨hm, List.append_eq_nil_iff.mpr ⟨Expansion.deferrals_silent hd, hrest⟩⟩
  | handed _ ht _ hd _ _ ihb _ =>
    obtain ⟨rfl, hnone⟩ := ihb (ht.static (hs _ List.mem_cons_self))
    exact absurd hnone (hd.resolve_left Bool.false_ne_true)

/-- A template of which anything is marked or deferred is tainted under the propagating policy. -/
theorem tainted {dynamic : Variable → Prop} (hdynamic : ∀ v x b, R v x b → (b = true ↔ dynamic v)) {n : String}
    {t : Template} (ht : C.Holds n t) (h : ExpandsThrough C R π ρ l t.nodes e m)
    (hd : m = true ∨ e.deferrals ≠ []) : C.Tainted dynamic .propagating n := by
  by_contra hquiet
  obtain ⟨rfl, hnone⟩ := h.quiet hdynamic (ht.static hquiet)
  exact hd.resolve_left Bool.false_ne_true hnone

/-- A deferred inclusion has a template, which expands to its body and marks. -/
theorem of_mem_deferrals (h : ExpandsThrough C R π ρ l nodes e m) {tag : Inclusion} {body : Expansion}
    (hm : (tag, body) ∈ e.deferrals) : ∃ t l', C.Holds tag.key t ∧ ExpandsThrough C R π ρ l' t.nodes body true := by
  induction h with
  | nil => cases hm
  | text _ ih => exact ih hm
  | output _ _ ih => exact ih hm
  | replaced _ _ ih => exact ih hm
  | reworked _ _ _ hd _ _ _ ih =>
    rcases List.mem_append.mp hm with hm | hm
    · rw [Expansion.deferrals, Expansion.deferrals_silent hd] at hm
      cases hm
    · exact ih hm
  | @handed l tag' next t d body' nodes e m _ ht hb _ _ _ ihb ih =>
    cases d with
    | true =>
      simp only [Expansion.deferrals, List.cons_append, List.mem_cons, List.mem_append, Prod.mk.injEq] at hm
      rcases hm with ⟨rfl, rfl⟩ | hm | hm
      · exact ⟨t, l, ht, hb⟩
      · exact ihb hm
      · exact ih hm
    | false =>
      rcases List.mem_append.mp hm with hm | hm
      · exact ihb hm
      · exact ih hm

/-- All deferred inclusions of a name have the same text. -/
theorem memo_of_mem_deferrals (hR : ∀ v x y b c, R v x b → R v y c → x = y ∧ b = c)
    (h : ExpandsThrough C R π ρ l nodes e m) {tag : Inclusion} {body : Expansion} (hm : (tag, body) ∈ e.deferrals) :
    e.memo tag.key = some body.emitted := by
  refine Expansion.memo_of_mem_deferrals hm fun tag' body' hm' hkey => ?_
  obtain ⟨t, _, ht, hb⟩ := h.of_mem_deferrals hm
  obtain ⟨t', _, ht', hb'⟩ := h.of_mem_deferrals hm'
  rw [hkey] at ht'
  obtain rfl := ht.unique ht'
  rw [(unique hR hb hb').1]

/-- An expansion leaves texts and tags that were parsed. -/
theorem frozen (h : ExpandsThrough C R π ρ l nodes e m) (hl : ∀ tag, .inclusion tag ∈ nodes → tag.Legible) :
    Frozen e.hybrid := by
  induction h with
  | nil =>
    intro node hn
    cases hn
  | text _ ih => exact List.forall_mem_cons.mpr ⟨trivial, ih fun tag ht => hl tag (List.mem_cons_of_mem _ ht)⟩
  | output _ _ ih => exact List.forall_mem_cons.mpr ⟨trivial, ih fun tag ht => hl tag (List.mem_cons_of_mem _ ht)⟩
  | replaced _ _ ih => exact List.forall_mem_cons.mpr ⟨trivial, ih fun tag ht => hl tag (List.mem_cons_of_mem _ ht)⟩
  | reworked _ _ _ hd _ _ _ ih =>
    rw [Expansion.hybrid, Expansion.hybrid, Expansion.hybrid_silent hd]
    exact List.forall_mem_cons.mpr ⟨trivial, ih fun tag ht => hl tag (List.mem_cons_of_mem _ ht)⟩
  | @handed l tag next t d body nodes e m _ ht _ _ _ _ ihb ih =>
    have hrest := ih fun tag ht => hl tag (List.mem_cons_of_mem _ ht)
    cases d with
    | true => exact List.forall_mem_cons.mpr ⟨hl tag List.mem_cons_self, hrest⟩
    | false =>
      obtain ⟨source, -, hparse⟩ := ht
      exact frozen_append (ihb fun tag ht => Inclusion.legible_of_parse hparse ht) hrest

end ExpandsThrough

end HybridTemplate
