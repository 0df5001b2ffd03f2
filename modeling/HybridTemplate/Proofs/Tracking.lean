import HybridTemplate.Proofs.Access
import HybridTemplate.Proofs.Catalog
import HybridTemplate.Proofs.Outline

/-!
# What a caching render tracks

An outline is a run through shared registers: frames are pushed and popped, marked and added to, and artifacts are
written. `Expands` says without any of this what comes out: it follows the nodes through the catalog, and an inclusion
is deferred just if its body marks the frame around it.

* `Expands` — the expansions of nodes, and whether they mark the frame around them;
* `Leaves` — what a part of the render leaves behind: the frames have absorbed its marks and inlined names, and its
  deferred inclusions are stored;
* `outlineWithin_tracks`, `outline_tracks` — every outline that answers is an expansion, and leaves behind what it
  should.

The only premise on objects is `Outcomes`: each output has an outcome in `R` and does nothing to the registers but mark.
-/

namespace HybridTemplate

open Registers (Handle)
open World

/-! ## Expansions of nodes -/

/-- What nodes expand to, and whether they mark the frame around them: `C` has the templates, `R` the outcomes of the
outputs, with a mark or without, and `π` says whether the mark of an inclusion spreads. -/
inductive Expands (C : Catalog) (R : Variable → String → Bool → Prop) (π : TaintPolicy) :
    List Node → Expansion → Bool → Prop
  | nil : Expands C R π [] .nil false
  | text {content : String} {nodes : List Node} {e : Expansion} {m : Bool} (h : Expands C R π nodes e m) :
      Expands C R π (.text content :: nodes) (.text content e) m
  | output {v : Variable} {value : String} {b : Bool} {nodes : List Node} {e : Expansion} {m : Bool}
      (hv : R v value b) (h : Expands C R π nodes e m) :
      Expands C R π (.output v :: nodes) (.output v value e) (b || m)
  | inclusion {tag : Inclusion} {t : Template} {d : Bool} {body : Expansion} {nodes : List Node} {e : Expansion}
      {m : Bool} (ht : C.Holds tag.key t) (hb : Expands C R π t.nodes body d) (h : Expands C R π nodes e m) :
      Expands C R π (.inclusion tag :: nodes) (.inclusion tag d body e) ((d && π.spreads) || m)

/-- The source of a name, if there is one. -/
def Catalog.text (C : Catalog) (n : String) : String :=
  match C n with
  | .ok source => source
  | .error _ => ""

theorem Catalog.text_of_ok {C : Catalog} {n source : String} (h : C n = .ok source) : C.text n = source := by
  rw [Catalog.text, h]

theorem Catalog.Holds.ok {C : Catalog} {n : String} {t : Template} (h : C.Holds n t) : C n = .ok (C.text n) := by
  obtain ⟨source, hs, _⟩ := h
  rw [C.text_of_ok hs, hs]

/-! ## What is left behind -/

/-- The registers after a part of a render that expanded to `e` and marked the frame around it if `m`. -/
def Registers.after (src : String → String) (m : Bool) (e : Expansion) (r : Registers) : Registers :=
  { r.absorb m e.inlined with store := e.stored src r.store }

namespace Registers

variable (src : String → String) (m n : Bool) (r : Registers)

@[simp] theorem caching_after (e : Expansion) : (r.after src m e).caching = r.caching := rfl

@[simp] theorem policy_after (e : Expansion) : (r.after src m e).policy = r.policy := rfl

theorem after_nil : r.after src m .nil = r.absorb m ∅ := rfl

theorem after_output (v : Variable) (value : String) (e : Expansion) :
    (r.absorb m ∅).after src n e = r.after src (m || n) (.output v value e) := by
  rw [after, absorb_absorb, NameSet.empty_union]
  rfl

theorem after_inclusion (tag : Inclusion) (d : Bool) (body e : Expansion) :
    (r.after src m (.inclusion tag d body .nil)).after src n e = r.after src (m || n) (.inclusion tag d body e) := by
  cases d <;> simp [after, absorb, mapStack, Expansion.inlined, Expansion.stored, FrameStack.absorb_absorb]

/-- What an inclusion pops after its body: a frame that has the marks and the names of the body, and the stack around
it, to which the mark spreads or not. -/
theorem pop?_after_push (name : String) (e : Expansion) :
    ((r.mapStack (·.push name)).after src m e).stack.pop? =
      some (⟨name, !m, e.inlined⟩, r.stack.absorb (m && r.policy.spreads) ∅) :=
  r.stack.pop?_absorb_push name m e.inlined

/-- What a frozen inclusion leaves behind. -/
theorem recordInlined_after (tag : Inclusion) (body : Expansion) :
    ({ r.absorb m ∅ with store := body.stored src r.store } : Registers).mapStack
        (·.recordInlined ⟨tag.key, true, body.inlined⟩) = r.after src m (.inclusion tag false body .nil) := by
  simp [after, absorb, mapStack, Expansion.inlined, Expansion.stored, FrameStack.recordInlined_eq_absorb,
    FrameStack.absorb_absorb]

/-- What a deferred inclusion leaves behind. -/
theorem mapStore_after (tag : Inclusion) (body : Expansion) :
    ({ r.absorb m ∅ with store := body.stored src r.store } : Registers).mapStore
        (·.defer tag.key (src tag.key) body.emitted (body.inlined.toList.map fun n => (n, src n))) =
      r.after src m (.inclusion tag true body .nil) :=
  rfl

end Registers

section

variable {ω σ : Type}

/-- A render that can go on: the source serves the catalog, the mode is caching, and the policy is `π`. -/
structure Ready (ctx : Context ω) (C : Catalog) (π : TaintPolicy) (w : World σ) : Prop where
  serves : w.source.Serves C
  caching : (w.registers.get ctx.registers).caching = true
  policy : (w.registers.get ctx.registers).policy = π

/-- From `w` to `w'` a part of the render went by that expanded to `e`, and marked the frame around it if `m`. -/
structure Leaves (ctx : Context ω) (C : Catalog) (m : Bool) (e : Expansion) (w w' : World σ) : Prop where
  answer : w'.source.answer = w.source.answer
  depth : w'.includeDepth = w.includeDepth
  registers : w'.registers.get ctx.registers = (w.registers.get ctx.registers).after C.text m e

variable {ctx : Context ω} {C : Catalog} {π : TaintPolicy} {w w₁ w' : World σ} {m n : Bool} {e : Expansion}

theorem Leaves.ready (h : Leaves ctx C m e w w') (hw : Ready ctx C π w) : Ready ctx C π w' where
  serves := hw.serves.congr h.answer
  caching := by rw [h.registers, Registers.caching_after, hw.caching]
  policy := by rw [h.registers, Registers.policy_after, hw.policy]

theorem Leaves.nil : Leaves ctx C false .nil w w :=
  ⟨rfl, rfl, by rw [Registers.after_nil, Registers.absorb_false_empty]⟩

theorem Leaves.nil_trans (h₁ : Leaves ctx C false .nil w w₁) (h₂ : Leaves ctx C m e w₁ w') : Leaves ctx C m e w w' :=
  ⟨h₂.answer.trans h₁.answer, h₂.depth.trans h₁.depth, by
    rw [h₂.registers, h₁.registers, Registers.after_nil, Registers.absorb_false_empty]⟩

theorem Leaves.output {v : Variable} {value : String} (h₁ : Leaves ctx C m .nil w w₁) (h₂ : Leaves ctx C n e w₁ w') :
    Leaves ctx C (m || n) (.output v value e) w w' :=
  ⟨h₂.answer.trans h₁.answer, h₂.depth.trans h₁.depth, by
    rw [h₂.registers, h₁.registers, Registers.after_nil, Registers.after_output]⟩

theorem Leaves.inclusion {tag : Inclusion} {d : Bool} {body : Expansion}
    (h₁ : Leaves ctx C m (.inclusion tag d body .nil) w w₁) (h₂ : Leaves ctx C n e w₁ w') :
    Leaves ctx C (m || n) (.inclusion tag d body e) w w' :=
  ⟨h₂.answer.trans h₁.answer, h₂.depth.trans h₁.depth, by
    rw [h₂.registers, h₁.registers, Registers.after_inclusion]⟩

/-! ## Reading -/

theorem readTemplate_eq_ok {name text : String} (hs : w.source.Serves C)
    (hr : (readTemplate name).run w = (.ok text, w')) :
    C name = .ok text ∧ w' = { w with source := w'.source } ∧ w'.source.answer = w.source.answer := by
  rw [readTemplate_run, hs] at hr
  rcases hC : C name with e | t
  · rw [hC] at hr
    cases hr
  · rw [hC] at hr
    cases hr
    exact ⟨rfl, rfl, rfl⟩

theorem readTemplates_eq_ok {names : List String} {pairs : List (String × String)} (hs : w.source.Serves C)
    (hr : (readTemplates names).run w = (.ok pairs, w')) :
    pairs = names.map (fun n => (n, C.text n)) ∧ w' = { w with source := w'.source } ∧
      w'.source.answer = w.source.answer := by
  induction names generalizing w w' pairs with
  | nil => cases hr; exact ⟨rfl, rfl, rfl⟩
  | cons name names ih =>
    obtain ⟨text, w₁, h₁, hr⟩ := Run.bind_eq_ok hr
    obtain ⟨rest, w₂, h₂, hr⟩ := Run.bind_eq_ok hr
    obtain ⟨hC, hw₁, ha₁⟩ := readTemplate_eq_ok hs h₁
    obtain ⟨rfl, hw₂, ha₂⟩ := ih (hs.congr ha₁) h₂
    obtain ⟨rfl, rfl⟩ := Run.pure_eq_ok hr
    refine ⟨by rw [List.map_cons, C.text_of_ok hC], ?_, ha₂.trans ha₁⟩
    rw [hw₂, hw₁]

theorem leaves_readTemplate {name text : String} (hs : w.source.Serves C)
    (hr : (readTemplate name).run w = (.ok text, w')) : C name = .ok text ∧ Leaves ctx C false .nil w w' := by
  obtain ⟨hC, hw', ha⟩ := readTemplate_eq_ok hs hr
  refine ⟨hC, ha, by rw [hw'], ?_⟩
  rw [Registers.after_nil, Registers.absorb_false_empty, hw']

/-! ## Inclusions -/

theorem Ready.deeper (hw : Ready ctx C π w) : Ready ctx C π w.deeper :=
  ⟨hw.serves, hw.caching, hw.policy⟩

/-- One inclusion deeper the same is left behind. -/
theorem Leaves.shallower (h : Leaves ctx C m e w.deeper w₁) : Leaves ctx C m e w w₁.shallower := by
  refine ⟨h.answer, ?_, h.registers⟩
  show w₁.includeDepth - 1 = w.includeDepth
  rw [h.depth]
  rfl

theorem Ready.entered (hw : Ready ctx C π w) (name : String) : Ready ctx C π (w.entered ctx.registers name) := by
  have hentered : (w.entered ctx.registers name).registers.get ctx.registers =
      (w.registers.get ctx.registers).mapStack (·.push name) := Shared.get_modifyRegisters_self _ _ _
  exact ⟨hw.serves, by rw [hentered]; exact hw.caching, by rw [hentered]; exact hw.policy⟩

/-- A body inside a frame: the frame pops with its marks and names, and the mark spreads to the frames around or not. -/
theorem track_leaves {name : String} {inner : RenderRun σ Expansion} {body : Expansion} {frame : Frame}
    (hw : Ready ctx C π w) (hr : (track ctx.registers name inner).run w = (.ok (body, frame), w')) :
    ∃ w₁, inner.run (w.entered ctx.registers name) = (.ok body, w₁) ∧
      ∀ m, Leaves ctx C m body (w.entered ctx.registers name) w₁ →
        frame = ⟨name, !m, body.inlined⟩ ∧ w'.source.answer = w.source.answer ∧ w'.includeDepth = w.includeDepth ∧
        w'.registers.get ctx.registers = { (w.registers.get ctx.registers).absorb (m && π.spreads) ∅ with
          store := body.stored C.text (w.registers.get ctx.registers).store } := by
  obtain ⟨w₁, stack, hb, hp, rfl⟩ := track_eq_ok hr
  refine ⟨w₁, hb, fun m hl => ?_⟩
  have hentered : (w.entered ctx.registers name).registers.get ctx.registers =
      (w.registers.get ctx.registers).mapStack (·.push name) := Shared.get_modifyRegisters_self _ _ _
  have hregs := hl.registers
  rw [hentered] at hregs
  rw [hregs, Registers.pop?_after_push, hw.policy] at hp
  obtain ⟨rfl, rfl⟩ := Prod.mk.inj (Option.some.inj hp)
  refine ⟨rfl, hl.answer, hl.depth, ?_⟩
  show (w₁.toShared.modifyRegisters ctx.registers _).registers.get ctx.registers = _
  rw [Shared.get_modifyRegisters_self, hregs]
  rfl

/-- An inclusion is deferred just if its body marks the frame. -/
theorem outlineInclusion_leaves {tag : Inclusion} {inner : RenderRun σ Expansion} {d : Bool} {body : Expansion}
    (hw : Ready ctx C π w) (hr : (outlineInclusion ctx tag inner).run w = (.ok (d, body), w')) :
    ∃ a w₁, inner.run (w.entered ctx.registers tag.key) = (.ok a, w₁) ∧
      ∀ m, Leaves ctx C m a (w.entered ctx.registers tag.key) w₁ →
        d = m ∧ body = a ∧ Leaves ctx C (m && π.spreads) (.inclusion tag m a .nil) w w' := by
  rw [outlineInclusion, Run.bind_run_of_ok (registersOf_run _ _), if_pos hw.caching] at hr
  obtain ⟨⟨a, frame⟩, w₁, h₁, hr⟩ := Run.bind_eq_ok hr
  obtain ⟨w₀, hbody, hframe⟩ := track_leaves hw h₁
  refine ⟨a, w₀, hbody, fun m hl => ?_⟩
  obtain ⟨rfl, hanswer, hdepth, hregs⟩ := hframe m hl
  cases m with
  | false =>
    obtain ⟨_, w₂, h₂, hr⟩ := Run.bind_eq_ok hr
    obtain ⟨_, w₃, h₃, hr⟩ := Run.bind_eq_ok hr
    cases h₂
    cases h₃
    cases hr
    refine ⟨rfl, rfl, hanswer, hdepth, ?_⟩
    show (Shared.modifyRegisters _ ctx.registers _).registers.get ctx.registers = _
    rw [Shared.get_modifyRegisters_self, ← Registers.recordInlined_after]
    exact congrArg (fun r : Registers => r.mapStack (·.recordInlined ⟨tag.key, true, body.inlined⟩)) hregs
  | true =>
    obtain ⟨source, w₂, h₂, hr⟩ := Run.bind_eq_ok hr
    obtain ⟨inlined, w₃, h₃, hr⟩ := Run.bind_eq_ok hr
    obtain ⟨hC, hw₂, ha₂⟩ := readTemplate_eq_ok (hw.serves.congr hanswer) h₂
    obtain ⟨rfl, hw₃, ha₃⟩ := readTemplates_eq_ok (hw.serves.congr (ha₂.trans hanswer)) h₃
    obtain ⟨_, w₄, h₄, hr⟩ := Run.bind_eq_ok hr
    obtain ⟨_, w₅, h₅, hr⟩ := Run.bind_eq_ok hr
    obtain ⟨_, w₆, h₆, hr⟩ := Run.bind_eq_ok hr
    cases h₄
    cases h₅
    cases h₆
    cases hr
    refine ⟨rfl, rfl, (ha₃.trans ha₂).trans hanswer, ?_, ?_⟩
    · show w₃.includeDepth = _
      rw [hw₃, hw₂, ← hdepth]
    · show (Shared.modifyRegisters _ ctx.registers _).registers.get ctx.registers = _
      rw [Shared.get_modifyRegisters_self, ← Registers.mapStore_after, C.text_of_ok hC, hw₃, hw₂]
      exact congrArg (fun r : Registers => r.mapStore (·.defer tag.key source body.emitted
        (body.inlined.toList.map fun n => (n, C.text n)))) hregs

end

/-! ## The outline tracks -/

namespace Environment

variable {ω σ : Type} [DataModel ω σ]

/-- Each output that has a text has an outcome in `R`, and does nothing to the registers but mark. -/
def Outcomes (ctx : Context ω) (R : Variable → String → Bool → Prop) : Prop :=
  ∀ v w value w', (ctx.evaluate v).run w = (.ok value, w') →
    ∃ m, R v value m ∧ w'.registers.get ctx.registers = (w.registers.get ctx.registers).absorb m ∅

theorem Outcomes.leaves {ctx : Context ω} {C : Catalog} {R : Variable → String → Bool → Prop} (hR : Outcomes ctx R)
    {v : Variable} {value : String} {w w' : World σ} (hr : (lift (ctx.evaluate v)).run w = (.ok value, w')) :
    ∃ b, R v value b ∧ Leaves ctx C b .nil w w' := by
  rw [lift_run] at hr
  obtain ⟨hvalue, rfl⟩ := Prod.mk.inj hr
  obtain ⟨b, hb, hreg⟩ := hR v w.toShared value _ (Prod.ext hvalue rfl)
  exact ⟨b, hb, rfl, rfl, hreg⟩

/-- `inner` renders the template of `name` as it should, with fewer than `levels` inclusions inside one another. -/
def TracksTemplate (ctx : Context ω) (C : Catalog) (R : Variable → String → Bool → Prop) (π : TaintPolicy)
    (levels : Nat) (name : String) (inner : RenderRun σ Expansion) : Prop :=
  ∀ w body w', Ready ctx C π w → inner.run w = (.ok body, w') →
    ∃ t m, C.Holds name t ∧ Expands C R π t.nodes body m ∧ body.height < levels ∧ Leaves ctx C m body w w'

/-- `expand` renders inclusions as it should, at most `levels` of them inside one another. -/
def Tracks (ctx : Context ω) (C : Catalog) (R : Variable → String → Bool → Prop) (π : TaintPolicy) (levels : Nat)
    (expand : Inclusion → RenderRun σ (Bool × Expansion)) : Prop :=
  ∀ tag w d body w', Ready ctx C π w → (expand tag).run w = (.ok (d, body), w') →
    ∃ t, C.Holds tag.key t ∧ Expands C R π t.nodes body d ∧ body.height < levels ∧
      Leaves ctx C (d && π.spreads) (.inclusion tag d body .nil) w w'

variable {ctx : Context ω} {C : Catalog} {R : Variable → String → Bool → Prop} {π : TaintPolicy} {levels : Nat}

theorem outlineWith_tracks (hR : Outcomes ctx R) {expand : Inclusion → RenderRun σ (Bool × Expansion)}
    (hx : Tracks ctx C R π levels expand) {nodes : List Node} {w w' : World σ} {e : Expansion}
    (hw : Ready ctx C π w) (hr : (outlineWith ctx expand nodes).run w = (.ok e, w')) :
    ∃ m, Expands C R π nodes e m ∧ e.height ≤ levels ∧ Leaves ctx C m e w w' := by
  induction nodes generalizing w e with
  | nil =>
    obtain ⟨rfl, rfl⟩ := Run.pure_eq_ok hr
    exact ⟨false, .nil, Nat.zero_le _, .nil⟩
  | cons node nodes ih =>
    cases node with
    | text content =>
      obtain ⟨rest, w₁, h₁, hr⟩ := Run.bind_eq_ok hr
      obtain ⟨rfl, rfl⟩ := Run.pure_eq_ok hr
      obtain ⟨m, he, hh, hl⟩ := ih hw h₁
      exact ⟨m, .text he, hh, hl.answer, hl.depth, hl.registers⟩
    | output v =>
      obtain ⟨value, w₁, h₁, hr⟩ := Run.bind_eq_ok hr
      obtain ⟨rest, w₂, h₂, hr⟩ := Run.bind_eq_ok hr
      obtain ⟨rfl, rfl⟩ := Run.pure_eq_ok hr
      obtain ⟨b, hb, hl₁⟩ := hR.leaves h₁
      obtain ⟨m, he, hh, hl⟩ := ih (hl₁.ready hw) h₂
      exact ⟨b || m, .output hb he, hh, hl₁.output hl⟩
    | inclusion tag =>
      obtain ⟨⟨d, body⟩, w₁, h₁, hr⟩ := Run.bind_eq_ok hr
      obtain ⟨rest, w₂, h₂, hr⟩ := Run.bind_eq_ok hr
      obtain ⟨rfl, rfl⟩ := Run.pure_eq_ok hr
      obtain ⟨t, ht, hb, hbh, hl₁⟩ := hx tag w d body w₁ hw h₁
      obtain ⟨m, he, hh, hl⟩ := ih (hl₁.ready hw) h₂
      exact ⟨_, .inclusion ht hb he, Nat.max_le.mpr ⟨hbh, hh⟩, hl₁.inclusion hl⟩

theorem outlineTemplate_tracks (hR : Outcomes ctx R) {expand : Inclusion → RenderRun σ (Bool × Expansion)}
    (hx : Tracks ctx C R π levels expand) (name : String) :
    TracksTemplate ctx C R π (levels + 1) name (outlineTemplate ctx expand name) := by
  intro w body w' hw hr
  obtain ⟨source, w₁, h₁, hr⟩ := Run.bind_eq_ok hr
  obtain ⟨hC, hl₁⟩ := leaves_readTemplate hw.serves h₁
  rcases ht : Template.parse source with err | t
  · rw [ht] at hr
    cases hr
  · rw [ht] at hr
    obtain ⟨m, he, hh, hl⟩ := outlineWith_tracks hR hx (hl₁.ready hw) hr
    exact ⟨t, m, ⟨source, hC, ht⟩, he, Nat.lt_succ_of_le hh, hl₁.nil_trans hl⟩

omit [DataModel ω σ] in
theorem nested_tracks {name : String} {inner : RenderRun σ Expansion} (limit : Nat)
    (hi : TracksTemplate ctx C R π levels name inner) :
    TracksTemplate ctx C R π levels name (nested id limit inner) := by
  intro w body w' hw hr
  obtain ⟨_, w₁, hr₁, rfl⟩ := nested_eq_ok hr
  obtain ⟨t, m, ht, he, hh, hl⟩ := hi w.deeper body w₁ hw.deeper hr₁
  exact ⟨t, m, ht, he, hh, hl.shallower⟩

omit [DataModel ω σ] in
theorem outlineInclusion_tracks {tag : Inclusion} {inner : RenderRun σ Expansion}
    (hi : TracksTemplate ctx C R π levels tag.key inner) {w w' : World σ} {d : Bool} {body : Expansion}
    (hw : Ready ctx C π w) (hr : (outlineInclusion ctx tag inner).run w = (.ok (d, body), w')) :
    ∃ t, C.Holds tag.key t ∧ Expands C R π t.nodes body d ∧ body.height < levels ∧
      Leaves ctx C (d && π.spreads) (.inclusion tag d body .nil) w w' := by
  obtain ⟨a, w₁, hbody, hleaves⟩ := outlineInclusion_leaves hw hr
  obtain ⟨t, m, ht, he, hh, hl⟩ := hi _ a w₁ (hw.entered tag.key) hbody
  obtain ⟨rfl, rfl, hl⟩ := hleaves m hl
  exact ⟨t, ht, he, hh, hl⟩

theorem outlineWithin_tracks (hR : Outcomes ctx R) (levels : Nat) :
    Tracks (σ := σ) ctx C R π levels (outlineWithin ctx levels) := by
  induction levels with
  | zero =>
    intro tag w d body w' hw hr
    refine outlineInclusion_tracks ?_ hw hr
    intro w body w' _ hr
    cases hr
  | succ levels ih =>
    intro tag w d body w' hw hr
    exact outlineInclusion_tracks (nested_tracks ctx.includeLimit (outlineTemplate_tracks hR ih tag.key)) hw hr

omit [DataModel ω σ] in
/-- A precompilation can go on with the nodes. -/
theorem ready_precompileStart {w : World σ} (hs : w.source.Serves C) :
    Ready ctx C (w.registers.get ctx.registers).policy (precompileStart ctx w) :=
  ⟨hs, by rw [get_precompileStart]; rfl, by rw [get_precompileStart]; rfl⟩

/-- The outline of a precompilation: the template expands, and the artifacts are what the deferred inclusions store. -/
theorem outline_tracks (hR : Outcomes ctx R) {t : Template} {w w' : World σ} {e : Expansion}
    (hs : w.source.Serves C) (hr : (outline ctx t).run w = (.ok e, w')) :
    (∃ m, Expands C R (w.registers.get ctx.registers).policy t.nodes e m) ∧
      e.height ≤ ctx.includeLimit - w.includeDepth ∧
      (w'.registers.get ctx.registers).store.getD {} = (e.stored C.text none).getD {} := by
  rw [outline_run] at hr
  obtain ⟨m, he, hh, hl⟩ := outlineWith_tracks hR (outlineWithin_tracks hR _) (ready_precompileStart hs) hr
  refine ⟨⟨m, he⟩, hh, ?_⟩
  rw [hl.registers, get_precompileStart]
  rfl

end Environment

end HybridTemplate
