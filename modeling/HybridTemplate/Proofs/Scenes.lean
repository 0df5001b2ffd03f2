import HybridTemplate.Proofs.Lowering
import HybridTemplate.Proofs.Related
import HybridTemplate.Render.Scene

/-!
# Renders through strategies

* `Scene.nested_run`, `Scene.cacheAware_run`, `Environments.render_run` — brackets and renders as equations;
* `Scene.Congruent` — a relation between scenes that does not tell what a render does of its own accord.
  `Scene.Congruent.related_native` and `Scene.Congruent.related_render` hold for all of them;
* `Run.UpToAborts` — a run that does the same as another one, or is aborted. With more calls inside one another
  inclusions do the same as before up to aborts, and so a render that ends in a text or an error ends in it with any
  greater number (`Environments.render_of_le`);
* `AtDepth` — a scene beside the state of a render in its context, inside so many inclusions. `related_through` is the
  step for the layers of an inclusion, and `Environment.render_alone` the render through layers as one through
  strategies: the native inclusion checks the limit, so no call is made below it.
-/

namespace HybridTemplate

open Registers (Handle)
open World

/-! ## Runs in a scene -/

namespace Scene

variable {ω σ α : Type}

@[simp] theorem within_run (x : Context ω → RenderRun σ α) (s : Scene ω σ) :
    (within x).run s = (((x s.context).run s.toWorld).1, { s with toWorld := ((x s.context).run s.toWorld).2 }) := rfl

/-- The scene one inclusion deeper. -/
def deeper (s : Scene ω σ) : Scene ω σ :=
  { s with includeDepth := s.includeDepth + 1 }

/-- The scene one inclusion less deep. -/
def shallower (s : Scene ω σ) : Scene ω σ :=
  { s with includeDepth := s.includeDepth - 1 }

theorem nested_run (body : SceneRun ω σ α) (s : Scene ω σ) :
    (nested body).run s =
      if s.context.includeLimit ≤ s.includeDepth then
        (.error (.error (.nestingTooDeep s.includeDepth)), s)
      else ((body.run s.deeper).1, (body.run s.deeper).2.shallower) := by
  rw [nested, Run.bind_run_of_ok (Run.look_run _ _)]
  simp only [id]
  split
  · rfl
  · rw [Run.bind_run_of_ok (Run.modify_run _ _), Run.bind_run_of_ok (Run.attempt_run _ _),
      Run.bind_run_of_ok (Run.modify_run _ _), Run.ofExcept_run]
    rfl

theorem cacheAware_run (tag : Inclusion) (inner : SceneRun ω σ String) (s : Scene ω σ) :
    (cacheAware tag inner).run s =
      if (s.registers.get s.context.registers).caching = true then
        (track s.context.registers tag.key inner >>= fun r =>
          within fun _ => settleInclusion s.context tag r.1 r.2).run s
      else inner.run s := by
  have hregs : (within fun _ => registersOf s.context.registers : SceneRun ω σ Registers).run s =
      (.ok (s.registers.get s.context.registers), s) := rfl
  rw [cacheAware, Run.bind_run_of_ok (Run.look_run _ _), Run.bind_run_of_ok hregs]
  split <;> rfl

/-- Out of caching mode the layer hands the inclusion on. -/
theorem cacheAware_run_of_plain {s : Scene ω σ} (h : (s.registers.get s.context.registers).caching = false)
    (tag : Inclusion) (inner : SceneRun ω σ String) : (cacheAware tag inner).run s = inner.run s := by
  rw [cacheAware_run, if_neg (ne_true_of_eq_false h)]

end Scene

namespace Environments

variable {ι ω σ : Type} [DataModel ω σ]

/-- The state in which a render starts its nodes. -/
def renderStart (s : Scene ω σ) : Scene ω σ :=
  { s with toWorld := Environment.renderStart s.context s.toWorld }

theorem render_run (E : Environments ι ω σ) (nesting : Nat) (env : ι) (t : Template) (s : Scene ω σ) :
    (E.render nesting env t).run s =
      (((Scene.renderNodes (E.expand nesting env) t.nodes).run (renderStart s)).1,
        let s' := ((Scene.renderNodes (E.expand nesting env) t.nodes).run (renderStart s)).2
        { s' with toShared := s'.toShared.report .renderEnded }) := by
  rw [render, Run.bind_run_of_ok (Scene.within_run _ _), Run.bind_run_of_ok (Scene.within_run _ _),
    Run.bind_run_of_ok (Run.attempt_run _ _), Run.bind_run_of_ok (Scene.within_run _ _), Run.ofExcept_run]
  rfl

end Environments

/-! ## Two scenes side by side -/

section

variable {ι ω ω' σ σ' : Type} [DataModel ω σ] [DataModel ω' σ']

namespace Scene

/-- A relation between scenes that does not tell whether both sides have read a name, reported, gone deeper or evaluated
a variable. -/
structure Congruent (R : Scene ω σ → Scene ω' σ' → Prop) : Prop where
  limit : ∀ {s s'}, R s s' → s.context.includeLimit = s'.context.includeLimit
  depth : ∀ {s s'}, R s s' → s.includeDepth = s'.includeDepth
  atDepth : ∀ {s s'} (d : Nat), R s s' → R { s with includeDepth := d } { s' with includeDepth := d }
  read : ∀ {s s'} (name : String), R s s' → (s.source.read name).1 = (s'.source.read name).1 ∧
    R { s with source := (s.source.read name).2 } { s' with source := (s'.source.read name).2 }
  report : ∀ {s s'} (e : Event), R s s' →
    R { s with toShared := s.toShared.report e } { s' with toShared := s'.toShared.report e }
  evaluate : ∀ v, Run.Related R Eq (within fun ctx => lift (ctx.evaluate v)) (within fun ctx => lift (ctx.evaluate v))

variable {R : Scene ω σ → Scene ω' σ' → Prop} {α β : Type} {q : α → β → Prop}

namespace Congruent

variable (hR : Congruent R)

include hR

theorem related_readTemplate (name : String) :
    Run.Related R Eq (within fun _ => readTemplate name) (within fun _ => readTemplate name) := by
  intro s s' hs
  obtain ⟨hans, hend⟩ := hR.read name hs
  have hans' : s.source.answer s.source.reads name = s'.source.answer s'.source.reads name := hans
  rw [within_run, within_run, readTemplate_run, readTemplate_run, ← hans']
  rcases s.source.answer s.source.reads name with e | text
  · exact ⟨.error _, hend⟩
  · exact ⟨.ok rfl, hend⟩

theorem related_nested {x : SceneRun ω σ α} {y : SceneRun ω' σ' β} (hx : Run.Related R q x y) :
    Run.Related R q (nested x) (nested y) := by
  intro s s' hs
  rw [nested_run, nested_run, hR.limit hs, hR.depth hs]
  split
  · exact ⟨.error _, hs⟩
  · have hdeeper : R s.deeper s'.deeper := by
      rw [deeper, deeper, hR.depth hs]
      exact hR.atDepth _ hs
    obtain ⟨hans, hend⟩ := hx _ _ hdeeper
    refine ⟨hans, ?_⟩
    rw [shallower, shallower, hR.depth hend]
    exact hR.atDepth _ hend

variable {expand : Inclusion → SceneRun ω σ String} {expand' : Inclusion → SceneRun ω' σ' String}

/-- Nodes end alike if inclusions do. -/
theorem related_renderNodes (hx : ∀ tag, Run.Related R Eq (expand tag) (expand' tag)) (nodes : List Node) :
    Run.Related R Eq (renderNodes expand nodes) (renderNodes expand' nodes) := by
  induction nodes with
  | nil => exact Run.related_pure rfl
  | cons node nodes ih =>
    have hnode : Run.Related R Eq (renderNode expand node) (renderNode expand' node) := by
      cases node with
      | text content => exact Run.related_pure rfl
      | output v => exact hR.evaluate v
      | inclusion tag => exact hx tag
    exact hnode.bind fun x x' hxx => ih.bind fun y y' hyy => Run.related_pure (by rw [hxx, hyy])

/-- The native inclusion ends alike if those in the template do. -/
theorem related_native (hx : ∀ tag, Run.Related R Eq (expand tag) (expand' tag)) (name : String) :
    Run.Related R Eq (nested (renderTemplate expand name)) (nested (renderTemplate expand' name)) := by
  refine hR.related_nested ((hR.related_readTemplate name).bind fun source source' hsource => ?_)
  subst hsource
  rcases Template.parse source with e | t
  · exact Run.related_fail _
  · exact hR.related_renderNodes hx t.nodes

/-- Renders end alike if they start the nodes in related scenes and inclusions end alike. -/
theorem related_render {E : Environments ι ω σ} {E' : Environments ι ω' σ'} {nesting : Nat} {env : ι}
    (hx : ∀ tag, Run.Related R Eq (E.expand nesting env tag) (E'.expand nesting env tag)) (t : Template)
    {s : Scene ω σ} {s' : Scene ω' σ'} (hs : R (Environments.renderStart s) (Environments.renderStart s')) :
    EndsAlike Eq ((E.render nesting env t).run s).1 ((E'.render nesting env t).run s').1 ∧
      R ((E.render nesting env t).run s).2 ((E'.render nesting env t).run s').2 := by
  obtain ⟨hans, hend⟩ := hR.related_renderNodes hx t.nodes _ _ hs
  rw [Environments.render_run, Environments.render_run]
  exact ⟨hans, hR.report .renderEnded hend⟩

end Congruent

end Scene

end

/-! ## More calls inside one another -/

namespace Run

variable {s ε ε' α β : Type} {x y : Run s ε α}

/-- The run is aborted, wherever it starts. -/
def Aborts (x : Run s ε α) : Prop :=
  ∀ w, ∃ a, (x.run w).1 = .error (.abort a)

/-- The second run does what the first one does, unless that is aborted. -/
def UpToAborts (x y : Run s ε α) : Prop :=
  ∀ w, (∃ a, (x.run w).1 = .error (.abort a)) ∨ x.run w = y.run w

theorem Aborts.bind {f : α → Run s ε β} (hx : ∀ w e, (x.run w).1 ≠ .error (.error e)) (hf : ∀ a, Aborts (f a)) :
    Aborts (x >>= f) := by
  intro w
  have hnever := hx w
  rcases hr : x.run w with ⟨(e | a) | b, w₁⟩
  · rw [hr] at hnever
    exact (hnever e rfl).elim
  · exact ⟨a, by rw [bind_run_of_error hr]⟩
  · rw [bind_run_of_ok hr]
    exact hf b w₁

theorem aborts_ofExcept_bind (a : Abort) (f : α → Run s ε β) : Aborts (ofExcept (.error (.abort a)) >>= f) :=
  fun _ => ⟨a, rfl⟩

theorem upToAborts_refl (x : Run s ε α) : UpToAborts x x :=
  fun _ => .inr rfl

theorem UpToAborts.bind {f g : α → Run s ε β} (hx : UpToAborts x y) (hf : ∀ a, UpToAborts (f a) (g a)) :
    UpToAborts (x >>= f) (y >>= g) := by
  intro w
  rcases hx w with ⟨a, ha⟩ | heq
  · exact .inl ⟨a, by rw [bind_run_of_error (Prod.ext ha rfl)]⟩
  · rcases hr : x.run w with ⟨e | b, w₁⟩
    · exact .inr (by rw [bind_run_of_error hr, bind_run_of_error (heq.symm.trans hr)])
    · rw [bind_run_of_ok hr, bind_run_of_ok (heq.symm.trans hr)]
      exact hf b w₁

theorem UpToAborts.catchError (hx : UpToAborts x y) : UpToAborts (x.catchError : Run s ε _) y.catchError := by
  intro w
  rw [catchError_run, catchError_run]
  rcases hx w with ⟨a, ha⟩ | heq
  · refine .inl ⟨a, ?_⟩
    rw [show x.run w = (.error (.abort a), (x.run w).2) from Prod.ext ha rfl]
  · exact .inr (by rw [heq])

/-- What follows a run whichever way it ends must pass its aborts on. -/
theorem UpToAborts.attempt_bind {f : Except (Failure ε) α → Run s ε' β} (hx : UpToAborts x y)
    (hf : ∀ a, Aborts (f (.error (.abort a)))) : UpToAborts (x.attempt >>= f) (y.attempt >>= f) := by
  intro w
  rw [bind_run_of_ok (attempt_run _ _), bind_run_of_ok (attempt_run _ _)]
  rcases hx w with ⟨a, ha⟩ | heq
  · rw [ha]
    exact .inl (hf a _)
  · exact .inr (by rw [heq])

end Run

namespace Scene

variable {ω σ α : Type} {x y : SceneRun ω σ α}

theorem upToAborts_track (hx : Run.UpToAborts x y) (h : Handle) (name : String) :
    Run.UpToAborts (track h name x) (track h name y) := by
  refine (Run.upToAborts_refl _).bind fun _ => hx.attempt_bind fun a => ?_
  refine Run.Aborts.bind (fun s e => ?_) fun frame => Run.aborts_ofExcept_bind a _
  rw [within_run]
  simp only [popFrame, Run.run]
  split <;> exact fun h => by cases h

theorem upToAborts_nested (hx : Run.UpToAborts x y) : Run.UpToAborts (nested x) (nested y) := by
  refine (Run.upToAborts_refl _).bind fun s => ?_
  split
  · exact Run.upToAborts_refl _
  · refine (Run.upToAborts_refl _).bind fun _ => hx.attempt_bind fun a => ?_
    exact Run.Aborts.bind (fun _ _ h => by cases h) fun _ _ => ⟨a, rfl⟩

theorem upToAborts_cacheAware {x y : SceneRun ω σ String} (hx : Run.UpToAborts x y) (tag : Inclusion) :
    Run.UpToAborts (cacheAware tag x) (cacheAware tag y) := by
  refine (Run.upToAborts_refl _).bind fun ctx => (Run.upToAborts_refl _).bind fun r => ?_
  split
  · exact (upToAborts_track hx _ _).bind fun _ => Run.upToAborts_refl _
  · exact hx

variable [DataModel ω σ] {expand expand' : Inclusion → SceneRun ω σ String}

theorem upToAborts_renderNodes (hx : ∀ tag, Run.UpToAborts (expand tag) (expand' tag)) (nodes : List Node) :
    Run.UpToAborts (renderNodes expand nodes) (renderNodes expand' nodes) := by
  induction nodes with
  | nil => exact Run.upToAborts_refl _
  | cons node nodes ih =>
    have hnode : Run.UpToAborts (renderNode expand node) (renderNode expand' node) := by
      cases node with
      | text content => exact Run.upToAborts_refl _
      | output v => exact Run.upToAborts_refl _
      | inclusion tag => exact hx tag
    exact hnode.bind fun _ => ih.bind fun _ => Run.upToAborts_refl _

theorem upToAborts_renderTemplate (hx : ∀ tag, Run.UpToAborts (expand tag) (expand' tag)) (name : String) :
    Run.UpToAborts (renderTemplate expand name) (renderTemplate expand' name) := by
  refine (Run.upToAborts_refl _).bind fun source => ?_
  split
  · exact upToAborts_renderNodes hx _
  · exact Run.upToAborts_refl _

end Scene

section

variable {ι ω σ : Type} [DataModel ω σ] {beneath beneath' anew anew' : ι → Inclusion → SceneRun ω σ String}

theorem Plan.upToAborts_follow (hb : ∀ env tag, Run.UpToAborts (beneath env tag) (beneath' env tag))
    (ha : ∀ env tag, Run.UpToAborts (anew env tag) (anew' env tag)) (plan : Plan ι ω σ) :
    Run.UpToAborts (plan.follow beneath anew) (plan.follow beneath' anew') := by
  induction plan with
  | give result => cases result <;> exact Run.upToAborts_refl _
  | abort a => exact Run.upToAborts_refl _
  | look next ih => exact (Run.upToAborts_refl _).bind ih
  | modify g next ih => exact (Run.upToAborts_refl _).bind fun _ => ih
  | expose o next ih => exact (Run.upToAborts_refl _).bind ih
  | get key v next ih => exact (Run.upToAborts_refl _).bind ih
  | render v next ih => exact (Run.upToAborts_refl _).bind ih
  | ask env tag next ih => exact (hb env tag).catchError.bind ih
  | call env tag next ih => exact (ha env tag).catchError.bind ih

namespace Environments

theorem upToAborts_through (ha : ∀ env tag, Run.UpToAborts (anew env tag) (anew' env tag))
    (chain : List (Strategy ι ω σ)) (env : ι) (tag : Inclusion) :
    Run.UpToAborts (through anew chain env tag) (through anew' chain env tag) := by
  induction chain generalizing env tag with
  | nil => exact Scene.upToAborts_nested (Scene.upToAborts_renderTemplate (ha env) tag.key)
  | cons strategy chain ih =>
    cases strategy with
    | cacheAware => exact Scene.upToAborts_cacheAware (ih env tag) tag
    | planned plan => exact Plan.upToAborts_follow ih ha (plan env tag)

theorem upToAborts_expand (E : Environments ι ω σ) {nesting nesting' : Nat} (h : nesting ≤ nesting') (env : ι)
    (tag : Inclusion) : Run.UpToAborts (E.expand nesting env tag) (E.expand nesting' env tag) := by
  induction nesting generalizing nesting' env tag with
  | zero => exact fun _ => .inl ⟨_, rfl⟩
  | succ nesting ih =>
    obtain _ | nesting' := nesting'
    · omega
    · exact upToAborts_through (fun env tag => ih (by omega) env tag) (E.chain env) env tag

/-- A render that gives a text or an error does the same with more calls inside one another. -/
theorem render_of_le (E : Environments ι ω σ) {nesting nesting' : Nat} (h : nesting ≤ nesting') (env : ι) (t : Template)
    {s : Scene ω σ} (hr : ∀ a, ((E.render nesting env t).run s).1 ≠ .error (.abort a)) :
    (E.render nesting' env t).run s = (E.render nesting env t).run s := by
  have hnodes := Scene.upToAborts_renderNodes (fun tag => E.upToAborts_expand h env tag) t.nodes
  rcases hnodes (renderStart s) with ⟨a, ha⟩ | heq
  · exact (hr a (by rw [render_run, ha])).elim
  · rw [render_run, render_run, heq]

end Environments

end

/-! ## A scene beside the state of a render -/

section

variable {ω σ : Type}

/-- The scene is in the state and has the context, inside so many inclusions. -/
structure AtDepth (ctx : Context ω) (depth : Nat) (s : Scene ω σ) (w : World σ) : Prop where
  world : s.toWorld = w
  context : s.context = ctx
  depth : w.includeDepth = depth

theorem AtDepth.eq {ctx : Context ω} {depth : Nat} {s : Scene ω σ} {w : World σ} (h : AtDepth ctx depth s w) :
    s = { w with context := ctx } := by
  rw [← h.world, ← h.context]

namespace Scene

variable {α β : Type} {ctx : Context ω} {depth : Nat} {q : α → β → Prop}

/-- What is done in the context is done alike in the scene, if it leaves the depth alone. -/
theorem related_within {x : Context ω → RenderRun σ α} (hx : ∀ w, ((x ctx).run w).2.includeDepth = w.includeDepth) :
    Run.Related (AtDepth ctx depth) Eq (within x) (x ctx) := by
  rintro s _ ⟨rfl, rfl, hdepth⟩
  refine ⟨.of_eq (fun _ => rfl) rfl, rfl, rfl, ?_⟩
  rw [hx]
  exact hdepth

theorem includeDepth_popFrame {ε : Type} (h : Handle) (w : World σ) :
    ((popFrame h : Run (World σ) ε Frame).run w).2.includeDepth = w.includeDepth := by
  simp only [popFrame, Run.run]
  split <;> rfl

theorem includeDepth_readTemplate (name : String) (w : World σ) :
    ((readTemplate name).run w).2.includeDepth = w.includeDepth := by
  rw [readTemplate_run]
  split <;> rfl

theorem related_track {h : Handle} {name : String} {x : SceneRun ω σ α} {y : RenderRun σ β}
    (hx : Run.Related (AtDepth ctx depth) q x y) :
    Run.Related (AtDepth ctx depth) (fun a b => q a.1 b.1 ∧ a.2 = b.2) (track h name x)
      (World.track h name y) := by
  have hpush : Run.Related (AtDepth ctx depth) Eq
      (within fun _ => modifyRegisters h (·.mapStack (·.push name)) : SceneRun ω σ Unit)
      (modifyRegisters h (·.mapStack (·.push name))) := related_within fun _ => rfl
  have hpop : Run.Related (AtDepth ctx depth) Eq (within fun _ => popFrame h : SceneRun ω σ Frame)
      (popFrame h) := related_within (includeDepth_popFrame h)
  refine hpush.bind fun _ _ _ => hx.attempt.bind fun r r' hr => hpop.bind fun f f' hf => ?_
  exact (Run.related_ofExcept hr).bind fun a b hab => Run.related_pure ⟨hab, hf⟩

theorem related_cacheAware {tag : Inclusion} {x : SceneRun ω σ String} {y : RenderRun σ String}
    (hx : Run.Related (AtDepth ctx depth) Eq x y) :
    Run.Related (AtDepth ctx depth) Eq (cacheAware tag x) (HybridTemplate.cacheAware ctx tag y) := by
  have hsettle : ∀ text frame, Run.Related (AtDepth (σ := σ) ctx depth) Eq
      (within fun _ => settleInclusion ctx tag text frame) (settleInclusion ctx tag text frame) :=
    fun text frame => related_within fun w =>
      ((bracketed_lowers.restores_outside ctx.registers).keeps_settleInclusion tag text frame w).depth
  have hbracket : Run.Related (AtDepth ctx depth) Eq
      (track ctx.registers tag.key x >>= fun r => within fun _ => settleInclusion ctx tag r.1 r.2)
      (World.track ctx.registers tag.key y >>= fun r => settleInclusion ctx tag r.1 r.2) := by
    refine (related_track hx).bind fun r r' ⟨htext, hframe⟩ => ?_
    rw [htext, hframe]
    exact hsettle _ _
  intro s w hw
  have hregs : s.registers.get s.context.registers = w.registers.get ctx.registers := by
    rw [hw.context, ← hw.world]
  rw [cacheAware_run, HybridTemplate.cacheAware_run, hregs, hw.context]
  split
  · exact hbracket s w hw
  · exact hx s w hw

theorem related_nested {x : SceneRun ω σ α} {y : RenderRun σ β} (hx : Run.Related (AtDepth ctx (depth + 1)) q x y) :
    Run.Related (AtDepth ctx depth) q (nested x) (World.nested id ctx.includeLimit y) := by
  rintro s _ ⟨rfl, rfl, rfl⟩
  rw [nested_run, World.nested_run]
  split
  · exact ⟨.error _, rfl, rfl, rfl⟩
  · obtain ⟨hans, hend⟩ := hx s.deeper s.toWorld.deeper ⟨rfl, rfl, rfl⟩
    refine ⟨hans, congrArg World.shallower hend.world, hend.context, ?_⟩
    rw [World.shallower, hend.depth]
    rfl

end Scene

end

/-! ## Renders -/

section

variable {ω σ : Type} [DataModel ω σ] {ctx : Context ω} {depth : Nat}

namespace Scene

theorem related_renderNodes {expand : Inclusion → SceneRun ω σ String} {expand' : Inclusion → RenderRun σ String}
    (hx : ∀ tag, Run.Related (AtDepth ctx depth) Eq (expand tag) (expand' tag)) (nodes : List Node) :
    Run.Related (AtDepth ctx depth) Eq (renderNodes expand nodes)
      (Environment.renderWith ctx expand' nodes) := by
  induction nodes with
  | nil => exact Run.related_pure rfl
  | cons node nodes ih =>
    have hnode : Run.Related (AtDepth ctx depth) Eq (renderNode expand node)
        (Environment.renderNode ctx expand' node) := by
      cases node with
      | text content => exact Run.related_pure rfl
      | output v => exact related_within fun _ => rfl
      | inclusion tag => exact hx tag
    exact hnode.bind fun x x' hxx => ih.bind fun y y' hyy => Run.related_pure (by rw [hxx, hyy])

theorem related_renderTemplate {expand : Inclusion → SceneRun ω σ String} {expand' : Inclusion → RenderRun σ String}
    (hx : ∀ tag, Run.Related (AtDepth ctx depth) Eq (expand tag) (expand' tag)) (name : String) :
    Run.Related (AtDepth ctx depth) Eq (renderTemplate expand name)
      (Environment.renderTemplate ctx expand' name) := by
  have hread : Run.Related (AtDepth (σ := σ) ctx depth) Eq (within fun _ => readTemplate name)
      (readTemplate name) := related_within (includeDepth_readTemplate name)
  refine hread.bind fun source source' hsource => ?_
  subst hsource
  rcases Template.parse source with e | t
  · exact Run.related_fail _
  · exact related_renderNodes hx t.nodes

omit [DataModel ω σ] in
/-- Where no more inclusions are allowed, the bracket fails with the depth. -/
theorem related_nested_tooDeep (hlimit : ctx.includeLimit - depth = 0) (x : SceneRun ω σ String) :
    Run.Related (AtDepth ctx depth) Eq (nested x)
      (do .raise (.nestingTooDeep (← Run.look World.includeDepth))) := by
  rintro s _ ⟨rfl, rfl, rfl⟩
  rw [nested_run, if_pos (Nat.le_of_sub_eq_zero hlimit)]
  exact ⟨.error _, rfl, rfl, rfl⟩

end Scene

variable {beneath anew : Unit → Inclusion → SceneRun ω σ String} {tag : Inclusion}

/-- A reply is followed as the plan that it is. -/
theorem related_follow {inner : RenderRun σ String} (hi : Run.Related (AtDepth ctx depth) Eq (beneath () tag) inner)
    (reply : Reply) :
    Run.Related (AtDepth ctx depth) Eq ((reply.plan () tag).follow beneath anew) (reply.follow inner) := by
  induction reply with
  | give result =>
    cases result with
    | ok text => exact Run.related_pure rfl
    | error e => exact Run.related_fail _
  | ask next ih => exact hi.catchError.bind fun r r' hr => hr.eq ▸ ih r

/-- Layers are followed as the strategies that they are, if their innermost is followed alike. -/
theorem related_through {native : RenderRun σ String}
    (hn : Run.Related (AtDepth ctx depth) Eq (Scene.nested (Scene.renderTemplate (anew ()) tag.key)) native)
    (layers : List Layer) :
    Run.Related (AtDepth ctx depth) Eq (Environments.through anew (layers.map Layer.strategy) () tag)
      (runLayers ctx tag native layers) := by
  induction layers with
  | nil => exact hn
  | cons layer layers ih =>
    cases layer with
    | cacheAware => exact Scene.related_cacheAware ih
    | custom reply => exact related_follow ih (reply tag)

namespace Environment

/-- With more calls to make than there are levels left, an inclusion ends alike through layers and strategies. -/
theorem related_expand_alone (env : Environment) {nesting : Nat} (h : ctx.includeLimit - depth < nesting)
    (tag : Inclusion) :
    Run.Related (AtDepth (σ := σ) ctx depth) Eq (env.alone.expand nesting () tag)
      (env.expandWithin ctx (ctx.includeLimit - depth) tag) := by
  induction nesting generalizing depth tag with
  | zero => omega
  | succ nesting ih =>
    rw [Environments.expand]
    rcases hlevels : ctx.includeLimit - depth with _ | levels
    · rw [expandWithin]
      exact related_through (Scene.related_nested_tooDeep hlevels _) env.layers
    · obtain rfl : levels = ctx.includeLimit - (depth + 1) := by omega
      rw [expandWithin]
      exact related_through (Scene.related_nested (Scene.related_renderTemplate (ih (by omega)) tag.key)) env.layers

/-- A render through layers is a render through strategies, with any number of calls inside one another that is beyond
the limit: it gives the same result and leaves the same state, and the context as it was. -/
theorem render_alone (env : Environment) (ctx : Context ω) (t : Template) (w : World σ) {nesting : Nat}
    (h : ctx.includeLimit - w.includeDepth < nesting) :
    (env.alone.render nesting () t).run { w with context := ctx } =
      (((env.render ctx t).run w).1, { ((env.render ctx t).run w).2 with context := ctx }) := by
  have hnodes : Run.Related (AtDepth (σ := σ) ctx w.includeDepth) Eq
      (Scene.renderNodes (env.alone.expand nesting ()) t.nodes) (env.renderNodes ctx t) := by
    intro s w' hw
    have hrun : (env.renderNodes ctx t).run w' =
        (renderWith ctx (env.expandWithin ctx (ctx.includeLimit - w'.includeDepth)) t.nodes).run w' := rfl
    rw [hrun, hw.depth]
    exact Scene.related_renderNodes (env.related_expand_alone h) t.nodes s w' hw
  obtain ⟨hans, hend⟩ := hnodes (Environments.renderStart { w with context := ctx }) (renderStart ctx w) ⟨rfl, rfl, rfl⟩
  rw [Environments.render_run, render_run]
  refine Prod.ext hans.eq ?_
  dsimp only
  rw [hend.eq]

end Environment

end

end HybridTemplate
