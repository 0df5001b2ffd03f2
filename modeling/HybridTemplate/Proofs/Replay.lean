import HybridTemplate.Proofs.Meaning

/-!
# Replaying the memo

A hybrid source is rendered with the artifacts as the source of templates: what an inclusion reads is the text that it
was rendered to, which is a hybrid source itself.

* `Calm` — nothing that a run does can be seen from outside but that names were recorded as inlined;
* `Calms` — a run that answers and is calm, from every state that has room for its inclusions; frames do not matter,
  since nothing marks them (`calms_cacheAware`);
* `calms_hybrid` — the hybrid of an expansion gives the text of the expansion, if the memo has its deferrals;
* `Expands.memo_of_mem_deferrals` — the memo has them, however often a name was written;
* `replay_precompile` — a replay gives the text that the template itself has in the context of the precompilation.
-/

namespace HybridTemplate

open Registers (Handle)
open World

variable {ω σ : Type}

/-! ## Calm runs -/

/-- From `w` to `w'` no object has acted, and the registers have at most more names recorded. -/
structure Calm (ctx : Context ω) (w w' : World σ) : Prop where
  objects : w'.objects = w.objects
  answer : w'.source.answer = w.source.answer
  depth : w'.includeDepth = w.includeDepth
  registers : ∃ names, w'.registers.get ctx.registers = (w.registers.get ctx.registers).absorb false names

namespace Calm

variable {ctx : Context ω} {w w₁ w₂ : World σ}

theorem refl (w : World σ) : Calm ctx w w :=
  ⟨rfl, rfl, rfl, ∅, (Registers.absorb_false_empty _).symm⟩

theorem trans (h₁ : Calm ctx w w₁) (h₂ : Calm ctx w₁ w₂) : Calm ctx w w₂ := by
  refine ⟨h₂.objects.trans h₁.objects, h₂.answer.trans h₁.answer, h₂.depth.trans h₁.depth, ?_⟩
  obtain ⟨names₁, hr₁⟩ := h₁.registers
  obtain ⟨names₂, hr₂⟩ := h₂.registers
  exact ⟨names₁.union names₂, by rw [hr₂, hr₁, Registers.absorb_absorb, Bool.or_self]⟩

end Calm

/-- From every state over the memo in which `levels` more inclusions have room inside one another, the run gives `a` and
is calm. -/
def Calms {α : Type} (ctx : Context ω) (M : Catalog) (levels : Nat) (x : RenderRun σ α) (a : α) : Prop :=
  ∀ w, w.source.Serves M → (0 < levels → w.includeDepth + levels ≤ ctx.includeLimit) →
    ∃ w', x.run w = (.ok a, w') ∧ Calm ctx w w'

section

variable {α β : Type} {ctx : Context ω} {M : Catalog} {levels : Nat} {x : RenderRun σ α} {f : α → RenderRun σ β}
  {a : α} {b : β}

theorem calms_pure (a : α) : Calms ctx M levels (pure a : RenderRun σ α) a :=
  fun w _ _ => ⟨w, rfl, .refl w⟩

theorem Calms.bind (hx : Calms ctx M levels x a) (hf : Calms ctx M levels (f a) b) :
    Calms ctx M levels (x >>= f) b := by
  intro w hs hroom
  obtain ⟨w₁, h₁, hcalm₁⟩ := hx w hs hroom
  obtain ⟨w₂, h₂, hcalm₂⟩ := hf w₁ (hs.congr hcalm₁.answer) (by rwa [hcalm₁.depth])
  exact ⟨w₂, by rw [Run.bind_run_of_ok h₁, h₂], hcalm₁.trans hcalm₂⟩

theorem calms_readTemplate {name text : String} (h : M name = .ok text) :
    Calms (σ := σ) ctx M levels (readTemplate name) text := by
  intro w hs _
  refine ⟨{ w with source := (w.source.read name).2 }, ?_, rfl, rfl, rfl, ∅, ?_⟩
  · rw [readTemplate_run, hs, h]
  · rw [Registers.absorb_false_empty]

theorem calms_nested {body : RenderRun σ α} (hb : Calms ctx M levels body a) :
    Calms ctx M (levels + 1) (nested id ctx.includeLimit body) a := by
  intro w hs hroom
  have hlimit := hroom (Nat.succ_pos levels)
  obtain ⟨w', hr, hcalm⟩ := hb w.deeper hs fun _ => by simp only [deeper]; omega
  refine ⟨w'.shallower, ?_, hcalm.objects, hcalm.answer, ?_, hcalm.registers⟩
  · rw [nested_run, if_neg (by omega), hr]
  · show w'.includeDepth - 1 = w.includeDepth
    rw [hcalm.depth]
    rfl

/-- A frame around a calm run is popped as it was pushed, but for the names recorded in it. -/
theorem calms_track {name : String} {body : RenderRun σ α} (hb : Calms ctx M levels body a) {w : World σ}
    (hs : w.source.Serves M) (hroom : 0 < levels → w.includeDepth + levels ≤ ctx.includeLimit) :
    ∃ names w', (track ctx.registers name body).run w = (.ok (a, ⟨name, true, names⟩), w') ∧ Calm ctx w w' := by
  obtain ⟨w₁, hr, hcalm⟩ := hb (w.entered ctx.registers name) hs hroom
  obtain ⟨names, hregs⟩ := hcalm.registers
  have hentered : (w.entered ctx.registers name).registers.get ctx.registers =
      (w.registers.get ctx.registers).mapStack (·.push name) := Shared.get_modifyRegisters_self _ _ _
  rw [hentered] at hregs
  have hpop : (w₁.registers.get ctx.registers).stack.pop? =
      some (⟨name, true, names⟩, (w.registers.get ctx.registers).stack) := by
    rw [hregs]
    refine (FrameStack.pop?_absorb_push _ name false names).trans ?_
    rw [Bool.false_and, FrameStack.absorb_false_empty]
    rfl
  refine ⟨names, _, track_run_of_ok hr hpop, hcalm.objects, hcalm.answer, hcalm.depth, ∅, ?_⟩
  show (w₁.toShared.modifyRegisters ctx.registers _).registers.get ctx.registers = _
  rw [Shared.get_modifyRegisters_self, hregs, Registers.absorb_false_empty]
  rfl

/-- The cache-aware layer freezes a calm inclusion, in caching mode or not. -/
theorem calms_cacheAware {tag : Inclusion} {inner : RenderRun σ String} {text : String}
    (hi : Calms ctx M levels inner text) : Calms ctx M levels (cacheAware ctx tag inner) text := by
  intro w hs hroom
  rw [cacheAware, Run.bind_run_of_ok (registersOf_run _ _)]
  split
  · obtain ⟨names, w₁, hr, hcalm⟩ := calms_track hi hs hroom
    rw [Run.bind_run_of_ok hr]
    refine ⟨_, rfl, hcalm.trans ⟨rfl, rfl, rfl, names.insert tag.key, ?_⟩⟩
    refine (Bank.get_modify_self _ _ _).trans ?_
    show ((w₁.registers.get ctx.registers).mapStack _) = _
    simp only [FrameStack.recordInlined_eq_absorb]
    rfl
  · exact hi w hs hroom

end

/-! ## The memo -/

namespace Expands

variable {C : Catalog} {R : Variable → String → Bool → Prop} {π : TaintPolicy} {nodes : List Node} {e e' : Expansion}
  {m m' : Bool}

/-- If outputs have one outcome only, there is one expansion. -/
theorem unique (hR : ∀ v x y b c, R v x b → R v y c → x = y ∧ b = c) (h : Expands C R π nodes e m)
    (h' : Expands C R π nodes e' m') : e = e' ∧ m = m' := by
  induction h generalizing e' m' with
  | nil => cases h'; exact ⟨rfl, rfl⟩
  | text _ ih =>
    cases h' with
    | text h' =>
      obtain ⟨rfl, rfl⟩ := ih h'
      exact ⟨rfl, rfl⟩
  | output hv _ ih =>
    cases h' with
    | output hv' h' =>
      obtain ⟨rfl, rfl⟩ := ih h'
      obtain ⟨rfl, rfl⟩ := hR _ _ _ _ _ hv hv'
      exact ⟨rfl, rfl⟩
  | inclusion ht _ _ ihb ih =>
    cases h' with
    | inclusion ht' hb' h' =>
      obtain rfl := ht.unique ht'
      obtain ⟨rfl, rfl⟩ := ihb hb'
      obtain ⟨rfl, rfl⟩ := ih h'
      exact ⟨rfl, rfl⟩

/-- All deferred inclusions of a name have the same text, so it does not matter which of them was written last. -/
theorem memo_of_mem_deferrals (hR : ∀ v x y b c, R v x b → R v y c → x = y ∧ b = c) (h : Expands C R π nodes e m)
    {tag : Inclusion} {body : Expansion} (hm : (tag, body) ∈ e.deferrals) :
    e.memo tag.key = some body.emitted := by
  refine Expansion.memo_of_mem_deferrals hm fun tag' body' hm' hkey => ?_
  obtain ⟨t, ht, hb⟩ := h.of_mem_deferrals hm
  obtain ⟨t', ht', hb'⟩ := h.of_mem_deferrals hm'
  rw [hkey] at ht'
  obtain rfl := ht.unique ht'
  rw [(unique hR hb hb').1]

end Expands

/-- The memo has the deferred inclusions of the expansion, and their texts can be read back. -/
def Replayable (M : Catalog) (e : Expansion) : Prop :=
  ∀ tag body, (tag, body) ∈ e.deferrals → M tag.key = .ok body.emitted ∧ Clean body.hybrid ∧ Frozen body.hybrid

namespace Environment

variable [DataModel ω σ] {M : Catalog} {levels : Nat}

/-- Over the memo the hybrid of an expansion gives its text. -/
theorem calms_hybrid (ctx : Context ω) {e : Expansion} (h : Replayable M e) (hl : e.height ≤ levels) :
    Calms (σ := σ) ctx M levels (renderWith ctx (cached.expandWithin ctx levels) e.hybrid) e.plain := by
  induction e generalizing levels with
  | nil => exact calms_pure ""
  | text content rest ih => exact (calms_pure content).bind ((ih h hl).bind (calms_pure _))
  | output v value rest ih => exact (calms_pure value).bind ((ih h hl).bind (calms_pure _))
  | inclusion tag d body rest ihb ih =>
    obtain ⟨hlb, hlr⟩ := Nat.max_le.mp hl
    cases d with
    | false =>
      have hbody : Replayable M body := fun tag' body' hm => h tag' body' (List.mem_append_left _ hm)
      have hrest : Replayable M rest := fun tag' body' hm => h tag' body' (List.mem_append_right _ hm)
      rw [Expansion.hybrid, renderWith_append]
      exact (ihb hbody (by omega)).bind ((ih hrest hlr).bind (calms_pure _))
    | true =>
      have hbody : Replayable M body := fun tag' body' hm =>
        h tag' body' (List.mem_append_left _ (List.mem_cons_of_mem _ hm))
      have hrest : Replayable M rest := fun tag' body' hm => h tag' body' (List.mem_append_right _ hm)
      obtain ⟨hmemo, hclean, hfrozen⟩ := h tag body (List.mem_append_left _ List.mem_cons_self)
      obtain ⟨l, rfl⟩ : ∃ l, levels = l + 1 := ⟨levels - 1, by omega⟩
      have htag : Calms (σ := σ) ctx M (l + 1) (cached.expandWithin ctx (l + 1) tag) body.plain := by
        rw [expandWithin_cached_succ]
        refine calms_cacheAware (calms_nested ((calms_readTemplate hmemo).bind ?_))
        rw [← body.emit_hybrid, parse_emit hclean hfrozen]
        show Calms ctx M l (renderWith ctx _ (Node.merge [] body.hybrid)) body.plain
        rw [renderWith_merge_nil]
        exact ihb hbody (by omega)
      exact htag.bind ((ih hrest hlr).bind (calms_pure _))

end Environment

/-! ## Replay -/

/-- A replay is a render over the artifacts; the source is put back that was there. -/
theorem Precompiled.replay_run [DataModel ω σ] {p : Precompiled} {t : Template} (ht : p.parse = .ok t)
    (env : Environment) (ctx : Context ω) (w : World σ) :
    (p.replay env ctx).run w =
      (((env.render ctx t).run { w with source := p.artifacts.toSource }).1,
        { ((env.render ctx t).run { w with source := p.artifacts.toSource }).2 with source := w.source }) := by
  simp only [replay, ht]
  rw [Run.bind_run_of_ok (swapSource_run _ _), Run.bind_run_of_ok (Run.attempt_run _ _),
    Run.bind_run_of_ok (swapSource_run _ _), Run.ofExcept_run]

/-- A replay of a source that does not parse does nothing. -/
theorem Precompiled.replay_run_of_error [DataModel ω σ] {p : Precompiled} {e : ParseError} (he : p.parse = .error e)
    (env : Environment) (ctx : Context ω) (w : World σ) :
    (p.replay env ctx).run w = (.error (.error (.parse e)), w) := by
  simp only [replay, he]
  rfl

namespace Environment

variable [DataModel ω σ] {ω' σ' : Type} [DataModel ω' σ'] {ctx : Context ω} {ctx' : Context ω'} {C : Catalog}
  {w : World σ} {w' : World σ'} {source : String} {t : Template} {p : Precompiled}

/-- A rendered hybrid is calm over a memo that has its deferrals. -/
theorem replay_hybrid {e : Expansion} (hparse : p.parse = .ok ⟨Node.merge [] e.hybrid⟩)
    (he : Replayable p.artifacts.catalog e) (hh : e.height ≤ ctx'.includeLimit - w'.includeDepth) :
    ((p.replay cached ctx').run w').1 = .ok e.plain ∧ ((p.replay cached ctx').run w').2.objects = w'.objects ∧
      ((p.replay cached ctx').run w').2.source = w'.source := by
  obtain ⟨w₁, hr, hcalm⟩ := calms_hybrid ctx' he hh
    (renderStart ctx' { w' with source := p.artifacts.toSource }) p.artifacts.serves_toSource fun hpos => by
      show w'.includeDepth + _ ≤ _
      omega
  have hrender :=
    (renderNodes_run cached ctx' ⟨e.hybrid⟩ (renderStart ctx' { w' with source := p.artifacts.toSource })).trans hr
  rw [Precompiled.replay_run hparse, render_merge, render_run, hrender]
  exact ⟨rfl, hcalm.objects, rfl⟩

/-- A replay gives the text that the page has in the context of the precompilation, in whatever context it is done and
whatever source is there; no object acts, and the source is neither read nor replaced. -/
theorem replay_precompile (hp : ctx.Pure) (hs : w.source.Serves C) (ht : Template.parse source = .ok t)
    (hr : ((cached.precompile ctx t).run w).1 = .ok p)
    (hclean : ∀ left, Hybrid C ctx.Shows (C.Tainted ctx.Touches (w.registers.get ctx.registers).policy) t.nodes left →
      Clean left)
    (hresults : ∀ n t' left, t.Reaches C n → C.Tainted ctx.Touches (w.registers.get ctx.registers).policy n →
      C.Holds n t' → Hybrid C ctx.Shows (C.Tainted ctx.Touches (w.registers.get ctx.registers).policy) t'.nodes left →
      Clean left)
    (hlimit : ctx'.includeLimit = ctx.includeLimit) (hdepth : w'.includeDepth = w.includeDepth) :
    ∃ out, (∀ w₁, ctx.Over C w.includeDepth w₁ → ((cached.render ctx t).run w₁).1 = .ok out) ∧
      ((p.replay cached ctx').run w').1 = .ok out ∧ ((p.replay cached ctx').run w').2.objects = w'.objects ∧
      ((p.replay cached ctx').run w').2.source = w'.source := by
  obtain ⟨shows, hmeans⟩ := hp.exists_says
  obtain ⟨e, m, he, hh, hsource, hartifacts⟩ := exists_expands_of_precompile hp.outcomes hs hr
  have hdynamic : ∀ v x b, ctx.Settled v x b → (b = true ↔ ctx.Touches v) := fun v x b hv => hv.2
  have hunique : ∀ v x y b c, ctx.Settled v x b → ctx.Settled v y c → x = y ∧ b = c := fun v x y b c hx hy =>
    hx.unique w.toShared hy
  have hparse := he.parse_eq_ok ht (hclean _ he.hybrid_of_settled) hsource
  have hreplayable : Replayable p.artifacts.catalog e := by
    intro tag body hm
    obtain ⟨t', ht', hb⟩ := he.of_mem_deferrals hm
    have hname : tag.key ∈ e.names := e.kept_subset_names (Expansion.mem_kept_of_mem_deferrals hm)
    refine ⟨Artifacts.catalog_of_result ?_, ?_, ?_⟩
    · rw [hartifacts, Expansion.results_stored, he.memo_of_mem_deferrals hunique hm]
      rfl
    · exact hresults tag.key t' _ ((he.mem_names_iff _).mp hname) ((hb.deferred_iff hdynamic ht').mp rfl) ht'
        hb.hybrid_of_settled
    · obtain ⟨source', -, hparse'⟩ := ht'
      exact hb.frozen fun tag => Inclusion.legible_of_parse hparse'
  refine ⟨e.plain, fun w₁ hw₁ => ?_, replay_hybrid hparse hreplayable (by rw [hlimit, hdepth]; exact hh)⟩
  rw [render_eq_meaning hmeans hw₁]
  refine he.meaning_plain (fun v x b hv => ?_) hh
  obtain ⟨k, hk⟩ := hmeans v
  rw [← (hk w₁.toShared).1, hv.1]

end Environment

namespace Sample

theorem reaches_foot {n : String} (h : catalog.Reaches "foot" n) : n = "foot" := by
  rcases (Catalog.reaches_iff_of_holds holds_foot).mp h with h | ⟨tag, ht, -⟩
  · exact h
  · simp at ht

theorem reaches_page {n : String} (h : page.Reaches catalog n) : n = "row" ∨ n = "foot" := by
  obtain ⟨tag, ht, h⟩ := h
  simp only [page, List.mem_cons, List.not_mem_nil, reduceCtorEq, Node.inclusion.injEq, false_or, or_false] at ht
  rcases ht with rfl | rfl
  · rcases (Catalog.reaches_iff_of_holds holds_row).mp h with h | ⟨tag, ht, h⟩
    · exact Or.inl h
    · simp only [List.mem_cons, List.not_mem_nil, reduceCtorEq, Node.inclusion.injEq, false_or, or_false] at ht
      subst ht
      exact Or.inr (reaches_foot h)
  · exact Or.inr (reaches_foot h)

/-- What is left of the row. -/
theorem hybrid_row {t : Template} (ht : catalog.Holds "row" t) {left : List Node}
    (h : Hybrid catalog (context "Ann").Shows (catalog.Tainted (context "Ann").Touches .propagating) t.nodes left) :
    left = [.text "Hi ", .text "Ann", .text "!"] := by
  obtain rfl := ht.unique holds_row
  have hname : (context "Ann").Shows ⟨"user", ["name"]⟩ "Ann" := fun w => by cbv
  cases h with
  | text h =>
    cases h with
    | output hv h =>
      obtain rfl := hv.unique world.toShared hname
      cases h with
      | deferred ht => exact absurd ht (tainted_page "Ann" .propagating).2
      | frozen _ hC hb h =>
        obtain rfl := hC.unique holds_foot
        cases hb with
        | text hb =>
          cases hb
          cases h
          rfl

/-- The page of the sample site, precompiled for one user and replayed for another without any templates. -/
theorem replay_precompile_page :
    ∃ out,
      (∀ w, (context "Ann").Over catalog 0 w →
        ((Environment.cached.render (context "Ann") page).run w).1 = .ok out) ∧
      (((precompiled "Ann").replay .cached (context "Bob")).run { world with source := .empty }).1 = .ok out := by
  have hlimit : (context "Bob").includeLimit = (context "Ann").includeLimit := rfl
  have hdepth : ({ world with source := .empty } : World Heap).includeDepth = world.includeDepth := rfl
  obtain ⟨out, hplain, hreplay, -⟩ := Environment.replay_precompile (pure_context "Ann").1 serves_world parse_page
    (precompile_page "Ann")
    (fun left hleft => by rw [hybrid_page hleft]; decide)
    (fun n t' left hreach htaint hC hleft => by
      rcases reaches_page hreach with rfl | rfl
      · rw [hybrid_row hC hleft]
        decide
      · exact absurd htaint (tainted_page "Ann" .propagating).2)
    hlimit hdepth
  exact ⟨out, hplain, hreplay⟩

end Sample

end HybridTemplate
