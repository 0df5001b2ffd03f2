import HybridTemplate.Proofs.Twins

/-!
# The artifacts without the rendered texts

The texts in the artifacts are good for one request only; what is kept for later ones is the sources. They are enough:
the names that are kept are closed under inclusion, so no render of the hybrid source asks for a name that is not there.

* `Expansion.mem_kept_of_mem_hybrid`, `Expands.mem_kept_of_includes` — the tags that are left are kept, and so is what
  a kept template includes;
* `render_withoutResults` — so a render of the hybrid over the sources that are kept is the one over all sources;
* `raw_store_complete` — with the sources alone, every render of the hybrid gives what it gives over the source that the
  precompilation had. The premise on the objects of the precompilation is that they do nothing to the registers but
  mark; an object that leaves caching mode in the middle of an inclusion keeps what comes after it from being recorded
  (`raw_store_incomplete`).
-/

namespace HybridTemplate

open Registers (Handle)
open World

namespace Expansion

/-- The tags that a render leaves are kept. -/
theorem mem_kept_of_mem_hybrid (e : Expansion) {tag : Inclusion} (h : .inclusion tag ∈ e.hybrid) :
    tag.key ∈ e.kept := by
  induction e with
  | nil => cases h
  | text content rest ih => exact ih ((List.mem_cons.mp h).resolve_left (by simp))
  | output v value rest ih => exact ih ((List.mem_cons.mp h).resolve_left (by simp))
  | inclusion tag' d body rest ihb ih =>
    cases d with
    | true =>
      rcases List.mem_cons.mp h with h | h
      · cases h
        exact List.mem_append_left _ List.mem_cons_self
      · exact List.mem_append_right _ (ih h)
    | false =>
      rcases List.mem_append.mp h with h | h
      · exact List.mem_append_left _ (ihb h)
      · exact List.mem_append_right _ (ih h)

end Expansion

namespace Expands

variable {C : Catalog} {R : Variable → String → Bool → Prop} {π : TaintPolicy} {nodes : List Node} {e : Expansion}
  {m : Bool}

/-- What a kept template includes is kept. -/
theorem mem_kept_of_includes (h : Expands C R π nodes e m) {n k : String} (hn : n ∈ e.kept) (hk : C.Includes n k) :
    k ∈ e.kept := by
  obtain ⟨tag, body, hm, hn⟩ := (e.mem_kept_iff n).mp hn
  obtain ⟨t, ht, hb⟩ := h.of_mem_deferrals hm
  have hreach : C.Reaches tag.key n := (hb.reaches_iff ht).mpr hn
  exact (e.mem_kept_iff k).mpr ⟨tag, body, hm, (hb.reaches_iff ht).mp (hreach.tail hk)⟩

end Expands

theorem Context.OnlyMarks.outcomes {ω σ : Type} [DataModel ω σ] {ctx : Context ω} (h : ctx.OnlyMarks) :
    Environment.Outcomes ctx fun _ _ _ => True := by
  intro v w value w' hr
  obtain ⟨m, hm⟩ := h v w
  rw [hr] at hm
  exact ⟨m, trivial, hm⟩

/-- The artifacts have the source that the catalog has under a name. -/
def Artifacts.Keeps (a : Artifacts) (C : Catalog) (n : String) : Prop :=
  ∃ text, C n = .ok text ∧ a.templates.get? n = some text

theorem Artifacts.Keeps.catalog_withoutResults {a : Artifacts} {C : Catalog} {n : String} (h : a.Keeps C n) :
    a.withoutResults.catalog n = C n := by
  obtain ⟨text, hC, ha⟩ := h
  rw [hC, catalog, get?_withoutResults, ha]

namespace Environment

variable {ω σ ω' σ' : Type} [DataModel ω σ] [DataModel ω' σ'] {ctx : Context ω} {C : Catalog} {w : World σ}
  {source : String} {t : Template} {p : Precompiled}

/-- Whatever an expansion keeps is all that a render of its hybrid asks for. -/
theorem render_withoutResults {R : Variable → String → Bool → Prop} {π : TaintPolicy} {nodes : List Node}
    {e : Expansion} {m : Bool} (he : Expands C R π nodes e m) {a : Artifacts} (ha : ∀ n, n ∈ e.kept → a.Keeps C n)
    {c : Context ω'} (hc : c.AddsNoNames) {s : Source} (hs : s.Serves C) (w' : World σ') :
    ((cached.render c ⟨e.hybrid⟩).run { w' with source := a.withoutResults.toSource }).1 =
      ((cached.render c ⟨e.hybrid⟩).run { w' with source := s }).1 := by
  have hsame : ∀ n, n ∈ e.kept → a.withoutResults.catalog n = C n := fun n hn => (ha n hn).catalog_withoutResults
  have hclosed : ∀ n k, n ∈ e.kept → C.Includes n k → k ∈ e.kept := fun n k hn hk => he.mem_kept_of_includes hn hk
  have hnodes : ∀ tag, .inclusion tag ∈ e.hybrid → tag.key ∈ e.kept := fun tag => e.mem_kept_of_mem_hybrid
  have hraw : ({ w' with source := a.withoutResults.toSource } : World σ').source.Serves a.withoutResults.catalog :=
    a.withoutResults.serves_toSource
  have hfull : ({ w' with source := s } : World σ').source.Serves C := hs
  exact (render_alike hc hsame hclosed hnodes hraw hfull rfl rfl).1

/-- The artifacts are closed under what the hybrid source and their own sources include, and have the sources of the
catalog. So a render of the hybrid source over them, without the rendered texts, gives in every context what it gives
over a source that serves the catalog. -/
theorem raw_store_complete (hmarks : ctx.OnlyMarks) (hs : w.source.Serves C) (ht : Template.parse source = .ok t)
    (hr : ((cached.precompile ctx t).run w).1 = .ok p) :
    ∃ e w', (outline ctx t).run w = (.ok e, w') ∧ p.source = Template.emit ⟨e.hybrid⟩ ∧
      (∀ tag, .inclusion tag ∈ e.hybrid → p.artifacts.Keeps C tag.key) ∧
      (∀ n text t', p.artifacts.templates.get? n = some text → Template.parse text = .ok t' →
        ∀ tag, .inclusion tag ∈ t'.nodes → p.artifacts.Keeps C tag.key) ∧
      (∀ n text, p.artifacts.templates.get? n = some text → C n = .ok text) ∧
      (Clean e.hybrid → ∃ t', p.parse = .ok t' ∧
        ∀ (ω' σ' : Type) [DataModel ω' σ'] (c : Context ω') (w' : World σ') (s : Source), c.AddsNoNames → s.Serves C →
          ((cached.render c t').run { w' with source := p.artifacts.withoutResults.toSource }).1 =
            ((cached.render c t').run { w' with source := s }).1) := by
  obtain ⟨e, w', ho, hsource, hartifacts⟩ := exists_outline_of_precompile hr
  obtain ⟨⟨m, he⟩, -, hstore⟩ := outline_tracks hmarks.outcomes hs ho
  rw [hstore] at hartifacts
  have hkept : ∀ n text, p.artifacts.templates.get? n = some text ↔ n ∈ e.kept ∧ C n = .ok text := by
    rw [hartifacts]
    exact he.templates_eq_some_iff
  have hkeeps : ∀ n, n ∈ e.kept → p.artifacts.Keeps C n := by
    intro n hn
    obtain ⟨t', ht'⟩ := he.holds_of_mem_names (e.kept_subset_names hn)
    exact ⟨C.text n, ht'.ok, (hkept n _).mpr ⟨hn, ht'.ok⟩⟩
  refine ⟨e, w', ho, by rw [hsource, Expansion.emit_hybrid], ?_, ?_, ?_, ?_⟩
  · intro tag hm
    exact hkeeps _ (e.mem_kept_of_mem_hybrid hm)
  · intro n text t' hn ht' tag hm
    obtain ⟨hn, hC⟩ := (hkept n text).mp hn
    have hincludes : C.Includes n tag.key := ⟨t', ⟨text, hC, ht'⟩, tag, hm, rfl⟩
    exact hkeeps _ (he.mem_kept_of_includes hn hincludes)
  · intro n text hn
    exact ((hkept n text).mp hn).2
  · intro hclean
    refine ⟨⟨Node.merge [] e.hybrid⟩, he.parse_eq_ok ht hclean hsource, ?_⟩
    intro ω' σ' _ c w' s hc hserves
    rw [render_merge]
    exact render_withoutResults he hkeeps hc hserves w'

end Environment

namespace Sample

/-- The sources of the sample site that are kept. -/
def sources : Source :=
  (precompiled "Ann").artifacts.withoutResults.toSource

/-- The page of the sample site, precompiled for one user and rendered for another from the sources that were kept. -/
theorem raw_store_complete_page :
    ∃ t', (precompiled "Ann").parse = .ok t' ∧
      ((Environment.cached.render (context "Bob") t').run { world with source := sources }).1 =
        ((Environment.cached.render (context "Bob") t').run world).1 := by
  obtain ⟨e, w', ho, -, -, -, -, hrender⟩ := Environment.raw_store_complete (pure_context "Ann").1.onlyMarks
    serves_world parse_page (precompile_page "Ann")
  have hout : ((Environment.outline (context "Ann") page).run world).1.map Expansion.hybrid =
      .ok [.text "Home", .text ": ", .inclusion ⟨" ", '\'', "row"⟩, .text "!"] := by
    cbv
  rw [ho] at hout
  have hclean : Clean e.hybrid := by
    rw [Except.ok.inj hout]
    decide
  obtain ⟨t', hparse, hsame⟩ := hrender hclean
  exact ⟨t', hparse, hsame _ _ (context "Bob") world world.source (pure_context "Bob").1.onlyMarks.addsNoNames
    serves_world⟩

/-- A user who leaves caching mode when the name is read. -/
def leaver : DataObject Scripted :=
  .uncacheable (.bare {
    script := .mk "user" [("name", .mk [.cachingOff] (.json (.string "Ann")))] none none 0 none false
    cell := 0
    registers := some ⟨0⟩ }) (some ⟨0⟩)

/-- The sample context with that user. -/
def leaving : Context Scripted :=
  (context "Ann").assign "user" (.object leaver)

/-- What a precompilation makes of the page for that user. -/
def cutShort : Precompiled :=
  { source := "Home: \x7b% include 'row' %\x7d!"
    artifacts := {
      templates := .ofList [("row", "Hi \x7b\x7b user.name \x7d\x7d\x7b% include 'foot' %\x7d")]
      renderedResults := .ofList [("row", "Hi Ann!")] } }

/-- An object that records a template of its own choice as inlined when it is accessed. -/
structure Recorder where
  registers : Handle
  template : String

instance : DataModel Recorder Unit where
  setRegisters o h := pure { o with registers := h }
  toRenderable o := pure (.bare o)
  invoke o _ := do
    Run.modify fun w => w.modifyRegisters o.registers (·.mapStack (·.recordInlined { name := o.template }))
    return .json (.string "Eve")
  toOutput _ := pure ""

/-- A user that records the news. -/
def recording : Context Recorder :=
  { assigns := NameMap.insert ∅ "user" (.object (.uncacheable (.bare ⟨⟨0⟩, "news"⟩) (some ⟨0⟩)))
    registers := ⟨0⟩
    includeLimit := 8 }

/-- A world in caching mode. -/
def cachingWorld (source : Source) : World Unit :=
  { registers := ⟨[{ caching := true }]⟩, log := [], objects := (), source, includeDepth := 0 }

/-- What is left of the page, read again. -/
def leftover : Template :=
  ⟨[.text "Home: ", .inclusion ⟨" ", '\'', "row"⟩, .text "!"]⟩

/-- Without the premises on the objects the sources that are kept are not enough. If an object leaves caching mode in
the row, then the foot, which the row includes after that, is not kept, and a render of the hybrid misses it. If an
object of a later render records a template that the precompilation did not come across, then that render misses it. -/
theorem raw_store_incomplete :
    (((Environment.cached.precompile leaving page).run world).1 = .ok cutShort ∧
      cutShort.parse = .ok leftover ∧ catalog.Includes "row" "foot" ∧
      cutShort.artifacts.templates.get? "row" = some "Hi \x7b\x7b user.name \x7d\x7d\x7b% include 'foot' %\x7d" ∧
      cutShort.artifacts.templates.get? "foot" = none ∧
      ((Environment.cached.render (context "Bob") leftover).run
        { world with source := cutShort.artifacts.withoutResults.toSource }).1 =
          .error (.error (.source (.notFound "foot"))) ∧
      ((Environment.cached.render (context "Bob") leftover).run world).1 = .ok "Home: Hi Bob!!") ∧
    (precompiled "Ann").parse = .ok leftover ∧
      ((Environment.cached.render recording leftover).run (cachingWorld sources)).1 =
        .error (.error (.source (.notFound "news"))) ∧
      ((Environment.cached.render recording leftover).run (cachingWorld world.source)).1 =
        .ok "Home: \x7b% include 'row' %\x7d!" := by
  refine ⟨⟨?_, ?_, ⟨_, holds_row, ⟨" ", '\'', "foot"⟩, by simp, rfl⟩, ?_, ?_, ?_, ?_⟩, ?_, ?_, ?_⟩
  all_goals cbv

end Sample

end HybridTemplate
