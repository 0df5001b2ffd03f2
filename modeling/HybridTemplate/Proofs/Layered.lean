import HybridTemplate.Proofs.Through

/-!
# Caching renders through layers of one's own

A caching render through the cache-aware layer around layers of one's own expands its nodes as `ExpandsThrough` says, as
long as the layers are `Sparing`: they pass errors on, and change no text in which anything is dynamic.

* `cacheAware_eq_ok` — what the cache-aware layer makes of a body that left an expansion behind;
* `Leaves.again` — a layer that asks twice leaves behind what is left behind by asking once;
* `follow_leaves`, `renderWith_through`, `expandWithin_through` — one reply, nodes, and inclusions on all levels;
* `exists_expandsThrough_of_precompile` — a precompilation that answers is an expansion through its layers.
-/

namespace HybridTemplate

open Registers (Handle)
open World

section

variable {ω σ : Type} {ctx : Context ω} {C : Catalog} {π : TaintPolicy} {w w₁ w' : World σ} {m : Bool}
  {body e : Expansion}

/-! ## What is left behind -/

theorem Registers.after_after (src : String → String) (m : Bool) (e : Expansion) (r : Registers) :
    (r.after src m e).after src m e = r.after src m e := by
  have hunion : e.inlined.union e.inlined = e.inlined := NameSet.ext_mem fun k => by rw [NameSet.mem_union, or_self]
  simp only [after, absorb, mapStack, FrameStack.absorb_absorb, Bool.or_self, hunion, Expansion.stored_stored]

/-- What is left behind once is left behind by doing the same again. -/
theorem Leaves.again (h₁ : Leaves ctx C m e w w₁) (h₂ : Leaves ctx C m e w₁ w') : Leaves ctx C m e w w' :=
  ⟨h₂.answer.trans h₁.answer, h₂.depth.trans h₁.depth, by
    rw [h₂.registers, h₁.registers, Registers.after_after]⟩

/-- The text of a template in which nothing is deferred does not matter for what is left behind. -/
theorem Leaves.silent (h : Leaves ctx C m body w w') (hd : body.deferrals = []) (x : String) :
    Leaves ctx C m (.text x body.silent) w w' := by
  refine ⟨h.answer, h.depth, ?_⟩
  rw [h.registers, Registers.after, Registers.after, Expansion.inlined, Expansion.inlined_silent, Expansion.stored,
    Expansion.stored_of_deferrals_nil _ hd, Expansion.stored_of_deferrals_nil _ (Expansion.deferrals_silent hd)]

/-! ## The cache-aware layer -/

/-- Each text can be taken for one that an expansion emits, and that of `e` for the one of `e`. -/
theorem Expansion.exists_emitted (e : Expansion) : ∃ g : String → Expansion, (∀ x, (g x).emitted = x) ∧
    g e.emitted = e := by
  refine ⟨fun x => if x = e.emitted then e else .text x .nil, fun x => ?_, if_pos rfl⟩
  dsimp only
  split
  · rename_i hx
    exact hx.symm
  · exact String.append_empty

theorem cacheAware_of_emitted {g : String → Expansion} (hg : ∀ x, (g x).emitted = x) (ctx : Context ω) (tag : Inclusion)
    (inner : RenderRun σ String) :
    cacheAware ctx tag inner = emittedInclusion tag <$> outlineInclusion ctx tag (g <$> inner) := by
  have hid : Expansion.emitted ∘ g = id := funext hg
  rw [← cacheAware_map_emitted, ← comp_map, hid, id_map]

/-- If the body of an inclusion left an expansion behind whose text it gave, then the inclusion is deferred just if the
body marked. -/
theorem cacheAware_eq_ok {tag : Inclusion} {inner : RenderRun σ String} {text : String} (hw : Ready ctx C π w)
    (hr : (cacheAware ctx tag inner).run w = (.ok text, w')) :
    ∃ x w₁, inner.run (w.entered ctx.registers tag.key) = (.ok x, w₁) ∧
      ∀ m e, e.emitted = x → Leaves ctx C m e (w.entered ctx.registers tag.key) w₁ →
        text = emittedInclusion tag (m, e) ∧ Leaves ctx C (m && π.spreads) (.inclusion tag m e .nil) w w' := by
  have houtline : ∀ g : String → Expansion, (∀ x, (g x).emitted = x) → ∃ x w₁,
      inner.run (w.entered ctx.registers tag.key) = (.ok x, w₁) ∧
        ∀ m, Leaves ctx C m (g x) (w.entered ctx.registers tag.key) w₁ →
          text = emittedInclusion tag (m, g x) ∧ Leaves ctx C (m && π.spreads) (.inclusion tag m (g x) .nil) w w' := by
    intro g hg
    rw [cacheAware_of_emitted hg, Run.map_run] at hr
    rcases ho : (outlineInclusion ctx tag (g <$> inner)).run w with ⟨_ | ⟨d, body⟩, w₂⟩
    · rw [ho] at hr
      cases hr
    · rw [ho] at hr
      obtain ⟨htext, rfl⟩ := Prod.mk.inj hr
      obtain ⟨a, w₁, hbody, hleaves⟩ := outlineInclusion_leaves hw ho
      rw [Run.map_run] at hbody
      rcases hx : inner.run (w.entered ctx.registers tag.key) with ⟨_ | x, w₃⟩
      · rw [hx] at hbody
        cases hbody
      · rw [hx] at hbody
        cases hbody
        refine ⟨x, w₃, rfl, fun m hl => ?_⟩
        obtain ⟨rfl, rfl, hl⟩ := hleaves m hl
        exact ⟨(Except.ok.inj htext).symm, hl⟩
  obtain ⟨g, hg, -⟩ := Expansion.nil.exists_emitted
  obtain ⟨x, w₁, hx, -⟩ := houtline g hg
  refine ⟨x, w₁, hx, fun m e he hl => ?_⟩
  subst he
  obtain ⟨g, hg, hge⟩ := e.exists_emitted
  obtain ⟨x, w₂, hx', hleaves⟩ := houtline g hg
  cases hx.symm.trans hx'
  rw [hge] at hleaves
  exact hleaves m hl

end

/-! ## Layers -/

/-- The layers pass errors on, and change no text of a template in which anything is dynamic. -/
structure Sparing (C : Catalog) (dynamic : Variable → Prop) (ρ : Inclusion → Reply) : Prop where
  strict : ∀ tag, (ρ tag).Strict
  handsOn : ∀ tag, C.Tainted dynamic .propagating tag.key → (ρ tag).HandsOn

namespace Environment

variable {ω σ : Type} [DataModel ω σ] {ctx : Context ω} {C : Catalog} {π : TaintPolicy} {ρ : Inclusion → Reply}
  {levels : Nat}

/-- `inner` renders the template of `name` as it should, with fewer than `levels` inclusions inside one another. -/
def BodyThrough (ctx : Context ω) (C : Catalog) (π : TaintPolicy) (ρ : Inclusion → Reply) (levels : Nat)
    (name : String) (inner : RenderRun σ String) : Prop :=
  ∀ w text w', Ready ctx C π w → inner.run w = (.ok text, w') →
    ∃ l t body d, levels = l + 1 ∧ C.Holds name t ∧ ExpandsThrough C ctx.Settled π ρ l t.nodes body d ∧
      text = body.emitted ∧ Leaves ctx C d body w w'

/-- `expand` renders inclusions as it should, at most `levels` of them inside one another. -/
def InclusionThrough (ctx : Context ω) (C : Catalog) (π : TaintPolicy) (ρ : Inclusion → Reply) (levels : Nat)
    (expand : Inclusion → RenderRun σ String) : Prop :=
  ∀ tag w text w', Ready ctx C π w → (expand tag).run w = (.ok text, w') →
    ∃ d body, ExpandsThrough C ctx.Settled π ρ levels [.inclusion tag] (.inclusion tag d body .nil) (d && π.spreads) ∧
      text = emittedInclusion tag (d, body) ∧ Leaves ctx C (d && π.spreads) (.inclusion tag d body .nil) w w'

/-- A sparing reply to a body: what it gives is emitted by an expansion that is left behind. -/
theorem follow_leaves (hρ : Sparing C ctx.Touches ρ) {tag : Inclusion} {inner : RenderRun σ String}
    (hi : BodyThrough ctx C π ρ levels tag.key inner) {w w' : World σ} {text : String} (hw : Ready ctx C π w)
    (hr : ((ρ tag).follow inner).run w = (.ok text, w')) :
    ∃ d e, ExpandsThrough C ctx.Settled π ρ levels [.inclusion tag] (.inclusion tag d e .nil) (d && π.spreads) ∧
      e.emitted = text ∧ Leaves ctx C d e w w' := by
  have hstrict := hρ.strict tag
  rcases hask : ρ tag with (e | x) | next
  · rw [hask] at hr
    cases hr
  · rw [hask] at hr
    obtain ⟨rfl, rfl⟩ := Run.pure_eq_ok hr
    have hl : Leaves ctx C false .nil w w := .nil
    exact ⟨false, .text x .nil, .replaced hask .nil, String.append_empty, hl.answer, hl.depth, hl.registers⟩
  · rw [hask] at hr hstrict
    obtain ⟨answer, w₁, hcaught, hr⟩ := Run.bind_eq_ok hr
    obtain ⟨told, rfl, hinner⟩ | ⟨e, rfl, -⟩ := Run.catchError_eq_ok hcaught
    · obtain ⟨l, t, body, d, rfl, ht, hb, rfl, hl⟩ := hi w told w₁ hw hinner
      -- whatever is asked after that is answered in the same way, and leaves the same behind
      have hsame : ∀ w₂ x w₃, Leaves ctx C d body w w₂ → inner.run w₂ = (.ok x, w₃) →
          x = body.emitted ∧ Leaves ctx C d body w w₃ := by
        intro w₂ x w₃ hl₂ hx
        obtain ⟨l', t', body', d', -, ht', hb', rfl, hl'⟩ := hi w₂ x w₃ (hl₂.ready hw) hx
        obtain rfl := ht.unique ht'
        obtain ⟨rfl, rfl⟩ := hb.unique (fun v x y b c hx hy => hx.unique w.toShared hy) hb'
        exact ⟨rfl, hl₂.again hl'⟩
      obtain ⟨hmeaning, hl⟩ := Reply.follow_of_strict (hstrict.1 _) hsame hl hr
      have hx : (ρ tag).meaning (.ok body.emitted) = .ok text := by
        rw [hask]
        exact hmeaning
      by_cases hquiet : d = false ∧ body.deferrals = []
      · obtain ⟨rfl, hd⟩ := hquiet
        refine ⟨false, .text text body.silent, .reworked hask ht hb hd hx .nil, ?_, hl.silent hd text⟩
        rw [Expansion.emitted, Expansion.emitted_silent hd, String.append_empty]
      · have hd : d = true ∨ body.deferrals ≠ [] := by
          rwa [not_and_or, Bool.not_eq_false] at hquiet
        have hon : (ρ tag).HandsOn := hρ.handsOn tag (hb.tainted (fun v x b hv => hv.2) ht hd)
        obtain rfl := Except.ok.inj ((hon.meaning hask _).symm.trans hx)
        have he := ExpandsThrough.handed (π := π) hask ht hb hd hon .nil
        rw [Bool.or_false] at he
        exact ⟨d, body, he, rfl, hl⟩
    · exact ((hstrict.2 e).follow w₁ text w' hr).elim

theorem cacheAware_through (hρ : Sparing C ctx.Touches ρ) {tag : Inclusion} {inner : RenderRun σ String}
    (hi : BodyThrough ctx C π ρ levels tag.key inner) {w w' : World σ} {text : String} (hw : Ready ctx C π w)
    (hr : (cacheAware ctx tag ((ρ tag).follow inner)).run w = (.ok text, w')) :
    ∃ d body, ExpandsThrough C ctx.Settled π ρ levels [.inclusion tag] (.inclusion tag d body .nil) (d && π.spreads) ∧
      text = emittedInclusion tag (d, body) ∧ Leaves ctx C (d && π.spreads) (.inclusion tag d body .nil) w w' := by
  obtain ⟨x, w₁, hx, hleaves⟩ := cacheAware_eq_ok hw hr
  obtain ⟨d, e, he, hemitted, hl⟩ := follow_leaves hρ hi (hw.entered tag.key) hx
  exact ⟨d, e, he, hleaves d e hemitted hl⟩

theorem renderWith_through (hp : ctx.Pure) {expand : Inclusion → RenderRun σ String}
    (hx : InclusionThrough ctx C π ρ levels expand) {nodes : List Node} {w w' : World σ} {text : String}
    (hw : Ready ctx C π w) (hr : (renderWith ctx expand nodes).run w = (.ok text, w')) :
    ∃ e m, ExpandsThrough C ctx.Settled π ρ levels nodes e m ∧ text = e.emitted ∧ Leaves ctx C m e w w' := by
  induction nodes generalizing w text with
  | nil =>
    obtain ⟨rfl, rfl⟩ := Run.pure_eq_ok hr
    exact ⟨.nil, false, .nil, rfl, .nil⟩
  | cons node nodes ih =>
    obtain ⟨first, w₁, h₁, hr⟩ := Run.bind_eq_ok hr
    obtain ⟨rest, w₂, h₂, hr⟩ := Run.bind_eq_ok hr
    obtain ⟨rfl, rfl⟩ := Run.pure_eq_ok hr
    cases node with
    | text content =>
      obtain ⟨rfl, rfl⟩ := Run.pure_eq_ok h₁
      obtain ⟨e, m, he, rfl, hl⟩ := ih hw h₂
      exact ⟨.text content e, m, .text he, rfl, hl.answer, hl.depth, hl.registers⟩
    | output v =>
      obtain ⟨b, hb, hl₁⟩ := hp.outcomes.leaves (C := C) h₁
      obtain ⟨e, m, he, rfl, hl⟩ := ih (hl₁.ready hw) h₂
      exact ⟨.output v first e, b || m, .output hb he, rfl, hl₁.output hl⟩
    | inclusion tag =>
      obtain ⟨d, body, hbody, rfl, hl₁⟩ := hx tag w first w₁ hw h₁
      obtain ⟨e, m, he, rfl, hl⟩ := ih (hl₁.ready hw) h₂
      exact ⟨.inclusion tag d body e, _, hbody.cons he, (Expansion.emitted_inclusion tag d body e).symm,
        hl₁.inclusion hl⟩

theorem bodyThrough_renderTemplate (hp : ctx.Pure) {expand : Inclusion → RenderRun σ String}
    (hx : InclusionThrough ctx C π ρ levels expand) (name : String) :
    BodyThrough ctx C π ρ (levels + 1) name (nested id ctx.includeLimit (renderTemplate ctx expand name)) := by
  intro w text w' hw hr
  obtain ⟨_, w₀, hbody, rfl⟩ := nested_eq_ok hr
  obtain ⟨source, w₁, h₁, hbody⟩ := Run.bind_eq_ok hbody
  obtain ⟨hC, hl₁⟩ := leaves_readTemplate hw.deeper.serves h₁
  rcases ht : Template.parse source with err | t
  · rw [ht] at hbody
    cases hbody
  · rw [ht] at hbody
    obtain ⟨e, m, he, htext, hl⟩ := renderWith_through hp hx (hl₁.ready hw.deeper) hbody
    exact ⟨levels, t, e, m, rfl, ⟨source, hC, ht⟩, he, htext, (hl₁.nil_trans hl).shallower⟩

variable {replies : List (Inclusion → Reply)}

/-- Inclusions are rendered as they should on all levels. -/
theorem expandWithin_through (hp : ctx.Pure) (hρ : Sparing C ctx.Touches (Reply.chain replies)) (levels : Nat) :
    InclusionThrough (σ := σ) ctx C π (Reply.chain replies) levels ((cachedOver replies).expandWithin ctx levels) := by
  induction levels with
  | zero =>
    intro tag w text w' hw hr
    rw [expandWithin_cachedOver_zero] at hr
    refine cacheAware_through hρ (fun w text w' _ hr => ?_) hw hr
    cases hr
  | succ levels ih =>
    intro tag w text w' hw hr
    rw [expandWithin_cachedOver_succ] at hr
    exact cacheAware_through hρ (bodyThrough_renderTemplate hp ih tag.key) hw hr

/-- A precompilation expands the template through its layers, and keeps what the expansion stores. -/
theorem exists_expandsThrough_of_precompile (hp : ctx.Pure) (hρ : Sparing C ctx.Touches (Reply.chain replies))
    {t : Template} {w : World σ} {p : Precompiled} (hs : w.source.Serves C)
    (hr : (((cachedOver replies).precompile ctx t).run w).1 = .ok p) :
    ∃ e m, ExpandsThrough C ctx.Settled (w.registers.get ctx.registers).policy (Reply.chain replies)
        (ctx.includeLimit - w.includeDepth) t.nodes e m ∧ p.source = e.emitted ∧
      p.artifacts = (e.stored C.text none).getD {} := by
  obtain ⟨w', hnodes, hartifacts⟩ := precompile_eq_ok hr
  rw [renderNodes_run] at hnodes
  obtain ⟨e, m, he, hsource, hl⟩ :=
    renderWith_through hp (expandWithin_through hp hρ _) (ready_precompileStart hs) hnodes
  refine ⟨e, m, he, hsource, ?_⟩
  rw [hartifacts, hl.registers, get_precompileStart]
  rfl

end Environment

end HybridTemplate
