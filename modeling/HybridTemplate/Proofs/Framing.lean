import Mathlib.Data.List.Forall2
import HybridTemplate.Proofs.Confined

/-!
# What every part of a render keeps

An inclusion puts back what it changed on the way in: it pops the frame that it pushed and is as deep afterwards as
before, whichever way it ends. So a relation between the states before and after holds for whole renders as soon as it
holds for the outputs.

* `FrameStack.Framewise` — two stacks with as many frames, which are related one by one: what was pushed can be popped
  (`Framewise.pop?_push`);
* `Restores` — a relation between states that is kept by all that a render does besides outputs; `keeps_renderNodes`
  says that a render keeps it, with layers of any kind;
* `Bracketed` — a bound on the registers that gives such a relation; `Outside` adds that the source answers as before
  and that the depth is the same.
-/

namespace HybridTemplate

open Registers (Handle)
open World

/-! ## Stacks -/

namespace FrameStack

/-- The stacks have as many frames, and these are related one by one. -/
def Framewise (p : Frame → Frame → Prop) (s s' : FrameStack) : Prop :=
  List.Forall₂ p s.frames s'.frames

variable {p : Frame → Frame → Prop} {s s' s₁ s₂ : FrameStack}

theorem Framewise.refl (hp : ∀ f, p f f) (s : FrameStack) : s.Framewise p s :=
  List.forall₂_same.mpr fun f _ => hp f

theorem forall₂_trans (hp : ∀ f g k, p f g → p g k → p f k) {fs gs ks : List Frame} (h₁ : List.Forall₂ p fs gs)
    (h₂ : List.Forall₂ p gs ks) : List.Forall₂ p fs ks := by
  induction h₁ generalizing ks with
  | nil => exact h₂
  | cons hf _ ih =>
    cases h₂ with
    | cons hg h₂ => exact .cons (hp _ _ _ hf hg) (ih h₂)

theorem Framewise.trans (hp : ∀ f g k, p f g → p g k → p f k) (h₁ : s.Framewise p s₁) (h₂ : s₁.Framewise p s₂) :
    s.Framewise p s₂ :=
  forall₂_trans hp h₁ h₂

theorem framewise_mapTop (hp : ∀ f, p f f) {g : Frame → Frame} (hg : ∀ f, p f (g f)) (s : FrameStack) :
    s.Framewise p { s with frames := mapTop g s.frames } := by
  obtain ⟨π, _ | ⟨f, fs⟩⟩ := s
  · exact .nil
  · exact .cons (hg f) (List.forall₂_same.mpr fun f _ => hp f)

theorem framewise_recordInlined (hp : ∀ f, p f f) {child : Frame} (hg : ∀ f, p f (f.inline child)) (s : FrameStack) :
    s.Framewise p (s.recordInlined child) :=
  framewise_mapTop hp hg s

theorem framewise_markUncacheable (hp : ∀ f, p f f) (hmark : ∀ f, p f f.mark) (s : FrameStack) :
    s.Framewise p s.markUncacheable := by
  unfold markUncacheable
  split
  · exact List.forall₂_map_right_iff.mpr (List.forall₂_same.mpr fun f _ => hmark f)
  · exact framewise_mapTop hp hmark s

/-- What was pushed can be popped, and beneath it are the frames that were there. -/
theorem Framewise.pop?_push {name : String} (h : (s.push name).Framewise p s') :
    ∃ f s₁, s'.pop? = some (f, s₁) ∧ p { name } f ∧ s.Framewise p s₁ ∧ s₁.policy = s'.policy := by
  obtain ⟨f, fs, hf, hfs, heq⟩ := List.forall₂_cons_left_iff.mp h
  exact ⟨f, { s' with frames := fs }, by rw [pop?, heq], hf, hfs, rfl⟩

/-- Where no frame is, none comes up. -/
theorem Framewise.frames_eq_nil (h : s.Framewise p s') (hs : s.frames = []) : s'.frames = [] := by
  rw [Framewise, hs] at h
  exact List.forall₂_nil_left_iff.mp h

end FrameStack

/-! ## Runs of a render -/

variable {σ : Type}

/-- A relation between the states before and after that all steps of a render keep which are no outputs: they report,
read templates, go deeper and come back, push frames and pop them, record what was inlined, and write artifacts. -/
structure Restores (h : Handle) (P : World σ → World σ → Prop) : Prop where
  refl : ∀ w, P w w
  trans : ∀ w₁ w₂ w₃, P w₁ w₂ → P w₂ w₃ → P w₁ w₃
  report : ∀ w e, P w { w with toShared := w.toShared.report e }
  read : ∀ (w : World σ) name, P w { w with source := (w.source.read name).2 }
  nested : ∀ {w w' : World σ}, P w.deeper w' → P w w'.shallower
  tracked : ∀ {w w' : World σ} {name}, P (w.entered h name) w' →
    ∃ f stack, (w'.registers.get h).stack.pop? = some (f, stack) ∧
      P w { w' with toShared := w'.toShared.modifyRegisters h fun r => { r with stack } }
  record : ∀ (w : World σ) f,
    P w { w with toShared := w.toShared.modifyRegisters h (·.mapStack (·.recordInlined f)) }
  store : ∀ (w : World σ) g, P w { w with toShared := w.toShared.modifyRegisters h (·.mapStore g) }

/-- Whether the body answers or not, the bracket pops a frame if there is one, and answers as the body does. -/
theorem World.track_run_of_pop? {ε α : Type} {h : Handle} {name : String} {body : Run (World σ) ε α} {w w₁ : World σ}
    {r : Except (Failure ε) α} {frame : Frame} {stack : FrameStack}
    (hb : body.run (w.entered h name) = (r, w₁)) (hp : (w₁.registers.get h).stack.pop? = some (frame, stack)) :
    (track h name body).run w =
      (r.map (·, frame), { w₁ with toShared := w₁.toShared.modifyRegisters h fun r => { r with stack } }) := by
  rw [track_run, hb]
  simp only [popFrame, Run.run, hp]

theorem cacheAware_run {ω : Type} (ctx : Context ω) (tag : Inclusion) (inner : RenderRun σ String) (w : World σ) :
    (cacheAware ctx tag inner).run w =
      if (w.registers.get ctx.registers).caching = true then
        (track ctx.registers tag.key inner >>= fun r => settleInclusion ctx tag r.1 r.2).run w
      else inner.run w := by
  rw [cacheAware, Run.bind_run_of_ok (registersOf_run _ _)]
  split <;> rfl

/-- Out of caching mode the layer hands the inclusion on. -/
theorem cacheAware_run_of_plain {ω : Type} {ctx : Context ω} {w : World σ}
    (h : (w.registers.get ctx.registers).caching = false) (tag : Inclusion) (inner : RenderRun σ String) :
    (cacheAware ctx tag inner).run w = inner.run w := by
  rw [cacheAware_run, if_neg (ne_true_of_eq_false h)]

namespace Restores

variable {α : Type} {h : Handle} {P : World σ → World σ → Prop} (hP : Restores h P) {x : RenderRun σ α}

include hP

theorem keeps_readTemplate (name : String) : Run.Keeps P (readTemplate name : RenderRun σ String) := by
  intro w
  rw [readTemplate_run]
  split
  · exact hP.read w name
  · exact hP.read w name

theorem keeps_readTemplates (names : List String) : Run.Keeps P (readTemplates names : RenderRun σ _) := by
  induction names with
  | nil => exact Run.keeps_pure hP.refl _
  | cons name names ih =>
    exact (hP.keeps_readTemplate name).bind hP.trans fun _ => ih.bind hP.trans fun _ => Run.keeps_pure hP.refl _

theorem keeps_nested {limit : Nat} (hx : Run.Keeps P x) : Run.Keeps P (World.nested id limit x) := by
  intro w
  rw [nested_run]
  split
  · exact hP.refl w
  · exact hP.nested (hx w.deeper)

/-- A bracket pops the frame that it pushed. -/
theorem keeps_track {name : String} (hx : Run.Keeps P x) : Run.Keeps P (track h name x) := by
  intro w
  rcases hr : x.run (w.entered h name) with ⟨r, w₁⟩
  have hbody := hx (w.entered h name)
  rw [hr] at hbody
  obtain ⟨f, stack, hp, hkept⟩ := hP.tracked hbody
  rw [track_run_of_pop? hr hp]
  exact hkept

theorem keeps_follow {inner : RenderRun σ String} (hi : Run.Keeps P inner) (reply : Reply) :
    Run.Keeps P (reply.follow inner) := by
  induction reply with
  | give result =>
    cases result with
    | ok text => exact Run.keeps_pure hP.refl _
    | error e => exact Run.keeps_fail hP.refl _
  | ask next ih => exact hi.catchError.bind hP.trans ih

end Restores

variable {ω : Type} {ctx : Context ω} {P : World σ → World σ → Prop}

namespace Restores

variable (hP : Restores ctx.registers P)

include hP

theorem keeps_settleInclusion (tag : Inclusion) (text : String) (frame : Frame) :
    Run.Keeps P (settleInclusion (σ := σ) ctx tag text frame) := by
  have hreport : ∀ e, Run.Keeps P (World.report e : RenderRun σ Unit) := fun e w => hP.report w e
  have hpure : ∀ text, Run.Keeps P (pure text : RenderRun σ String) := fun text => Run.keeps_pure hP.refl text
  rw [settleInclusion]
  split
  · have hrecord : Run.Keeps P (modifyRegisters ctx.registers
        (·.mapStack (·.recordInlined frame)) : RenderRun σ Unit) := fun w => hP.record w frame
    exact (hreport _).bind hP.trans fun _ => hrecord.bind hP.trans fun _ => hpure _
  · refine (hP.keeps_readTemplate _).bind hP.trans fun source => ?_
    refine (hP.keeps_readTemplates _).bind hP.trans fun inlined => ?_
    have hlook : Run.Keeps P (registersOf ctx.registers : RenderRun σ Registers) := fun w => hP.refl w
    have hstore : Run.Keeps P (modifyRegisters ctx.registers
        (·.mapStore (·.defer tag.key source text inlined)) : RenderRun σ Unit) := fun w => hP.store w _
    refine hlook.bind hP.trans fun r => (hreport _).bind hP.trans fun _ => ?_
    exact hstore.bind hP.trans fun _ => hpure _

theorem keeps_cacheAware {tag : Inclusion} {inner : RenderRun σ String} (hi : Run.Keeps P inner) :
    Run.Keeps P (cacheAware ctx tag inner) := by
  intro w
  rw [cacheAware_run]
  split
  · exact (hP.keeps_track hi).bind hP.trans (fun r => hP.keeps_settleInclusion tag r.1 r.2) w
  · exact hi w

theorem keeps_runLayers {tag : Inclusion} {native : RenderRun σ String} (hn : Run.Keeps P native)
    (layers : List Layer) : Run.Keeps P (runLayers ctx tag native layers) := by
  induction layers with
  | nil => exact hn
  | cons layer layers ih =>
    cases layer with
    | cacheAware => exact hP.keeps_cacheAware ih
    | custom reply => exact hP.keeps_follow ih _

end Restores

namespace Environment

variable [DataModel ω σ]

theorem keeps_renderWith (hP : Restores ctx.registers P) (hv : ∀ v, Run.Keeps P (lift (ctx.evaluate v)))
    {expand : Inclusion → RenderRun σ String} (hx : ∀ tag, Run.Keeps P (expand tag)) (nodes : List Node) :
    Run.Keeps P (renderWith ctx expand nodes) := by
  induction nodes with
  | nil => exact Run.keeps_pure hP.refl _
  | cons node nodes ih =>
    have hnode : Run.Keeps P (renderNode ctx expand node) := by
      cases node with
      | text content => exact Run.keeps_pure hP.refl _
      | output v => exact hv v
      | inclusion tag => exact hx tag
    exact hnode.bind hP.trans fun _ => ih.bind hP.trans fun _ => Run.keeps_pure hP.refl _

theorem keeps_renderTemplate (hP : Restores ctx.registers P) (hv : ∀ v, Run.Keeps P (lift (ctx.evaluate v)))
    {expand : Inclusion → RenderRun σ String} (hx : ∀ tag, Run.Keeps P (expand tag)) (name : String) :
    Run.Keeps P (renderTemplate ctx expand name) := by
  refine (hP.keeps_readTemplate name).bind hP.trans fun source => ?_
  split
  · exact keeps_renderWith hP hv hx _
  · exact Run.keeps_fail hP.refl _

/-- Inclusions keep what outputs keep. -/
theorem keeps_expandWithin (hP : Restores ctx.registers P) (hv : ∀ v, Run.Keeps P (lift (ctx.evaluate v)))
    (env : Environment) (levels : Nat) (tag : Inclusion) : Run.Keeps P (env.expandWithin ctx levels tag) := by
  induction levels generalizing tag with
  | zero =>
    have htooDeep : Run.Keeps P (do .raise (.nestingTooDeep (← Run.look World.includeDepth)) : RenderRun σ String) :=
      fun w => hP.refl w
    rw [expandWithin]
    exact hP.keeps_runLayers htooDeep _
  | succ levels ih =>
    rw [expandWithin]
    exact hP.keeps_runLayers (hP.keeps_nested (keeps_renderTemplate hP hv ih tag.key)) _

/-- Nodes keep what outputs keep. -/
theorem keeps_renderNodes (hP : Restores ctx.registers P) (hv : ∀ v, Run.Keeps P (lift (ctx.evaluate v)))
    (env : Environment) (t : Template) : Run.Keeps P (env.renderNodes ctx t) := by
  have hlook : Run.Keeps P (levelsLeft (σ := σ) ctx) := fun w => hP.refl w
  exact hlook.bind hP.trans fun levels => keeps_renderWith hP hv (keeps_expandWithin hP hv env levels) _

end Environment

/-! ## Registers -/

/-- The registers of a handle in the state of a render. -/
def World.registersAt (h : Handle) (w : World σ) : Registers :=
  w.registers.get h

/-- A bound on the registers that takes no notice of what was inlined and of artifacts, and with which what was pushed
can be popped. -/
structure Bracketed (S : Registers → Registers → Prop) : Prop extends Bound S where
  record : ∀ (r : Registers) f, S r (r.mapStack (·.recordInlined f))
  store : ∀ (r : Registers) g, S r (r.mapStore g)
  push : ∀ {r r' : Registers} {name}, S (r.mapStack (·.push name)) r' →
    ∃ f stack, r'.stack.pop? = some (f, stack) ∧ S r { r' with stack }

/-- Between the states the registers are in `S`, the source answers alike, and the depth is the same. -/
structure Outside (S : Registers → Registers → Prop) (h : Handle) (w w' : World σ) : Prop where
  answer : w'.source.answer = w.source.answer
  depth : w'.includeDepth = w.includeDepth
  registers : S (w.registersAt h) (w'.registersAt h)

namespace Bracketed

variable {S : Registers → Registers → Prop} (hS : Bracketed S) (h : Handle)

include hS

theorem restores : Restores h fun w w' : World σ => S (w.registersAt h) (w'.registersAt h) where
  refl w := hS.refl _
  trans _ _ _ h₁ h₂ := hS.trans h₁ h₂
  report w e := hS.refl _
  read w name := hS.refl _
  nested hw := hw
  tracked hw := by
    rw [registersAt, entered, Shared.get_modifyRegisters_self] at hw
    obtain ⟨f, stack, hp, hkept⟩ := hS.push hw
    refine ⟨f, stack, hp, ?_⟩
    rw [registersAt, registersAt, Shared.get_modifyRegisters_self]
    exact hkept
  record w f := by
    rw [registersAt, registersAt, Shared.get_modifyRegisters_self]
    exact hS.record _ f
  store w g := by
    rw [registersAt, registersAt, Shared.get_modifyRegisters_self]
    exact hS.store _ g

theorem restores_outside : Restores h (Outside (σ := σ) S h) where
  refl w := ⟨rfl, rfl, hS.refl _⟩
  trans _ _ _ h₁ h₂ := ⟨h₂.answer.trans h₁.answer, h₂.depth.trans h₁.depth, hS.trans h₁.registers h₂.registers⟩
  report w e := ⟨rfl, rfl, (hS.restores h).report w e⟩
  read w name := ⟨rfl, rfl, (hS.restores h).read w name⟩
  nested hw := by
    refine ⟨hw.answer, ?_, (hS.restores h).nested hw.registers⟩
    rw [shallower, hw.depth]
    rfl
  tracked hw := by
    obtain ⟨f, stack, hp, hkept⟩ := (hS.restores h).tracked hw.registers
    exact ⟨f, stack, hp, hw.answer, hw.depth, hkept⟩
  record w f := ⟨rfl, rfl, (hS.restores h).record w f⟩
  store w g := ⟨rfl, rfl, (hS.restores h).store w g⟩

variable [DataModel ω σ]

theorem keeps_evaluate (hc : ctx.Confined S) (v : Variable) :
    Run.Keeps (fun w w' : World σ => S (w.registersAt ctx.registers) (w'.registersAt ctx.registers))
      (lift (ctx.evaluate v)) :=
  fun w => hc.within hS.toBound v w.toShared

/-- The nodes of a template keep within the bound, whatever the layers are and however they end; afterwards the source
answers as before, and the depth is the same. -/
theorem keeps_renderNodes (hc : ctx.Confined S) (env : Environment) (t : Template) :
    Run.Keeps (Outside S ctx.registers) (env.renderNodes (σ := σ) ctx t) :=
  Environment.keeps_renderNodes (hS.restores_outside ctx.registers)
    (fun v w => ⟨rfl, rfl, hS.keeps_evaluate hc v w⟩) env t

end Bracketed

end HybridTemplate
