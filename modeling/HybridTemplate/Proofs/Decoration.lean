import Mathlib.Data.List.Forall2
import HybridTemplate.Proofs.Disabled
import HybridTemplate.Proofs.Unlogged

/-!
# How many layers there are around objects

A layer around an object passes every access on, and all that it does is to mark. Marks have no effect where there are
no frames, and a second mark has none anywhere. So out of caching mode it makes no difference how many layers objects
are put behind, and in either mode it makes none whether these are one or more.

* `DataObject.shielded` — an object behind layers that know the registers, as it goes into scope (`expose_wrap`);
* `Tolerates` — numbers of layers between which no registers of a kind tell the difference;
* `Shared.AlikeIn` — states that are alike, with registers of that kind. `alikeIn_access` is the step, and
  `Context.Rewrapped.evaluate` is what it says of outputs;
* `Exposure`, `Context.exposing` — objects in layers are prepared, and then something is done in the context;
* `layers_indistinct` — the two modes.
-/

namespace HybridTemplate

open Registers (Handle)
open World

/-! ## Layers that know the registers -/

section

variable {ω σ : Type} {h : Handle}

/-- The object behind `n` layers that know the registers. -/
def DataObject.shielded (h : Handle) : Nat → DataObject ω → DataObject ω
  | 0, o => o
  | n + 1, o => uncacheable (shielded h n o) (some h)

@[simp] theorem DataObject.core_shielded (n : Nat) (o : DataObject ω) : (o.shielded h n).core = o.core := by
  induction n with
  | zero => rfl
  | succ n ih => exact ih

/-- New layers learn the registers when the object is prepared, and otherwise take no part in this. -/
theorem DataObject.expose_wrap [Exposable ω σ] (n : Nat) (o : DataObject ω) (w : Shared σ) :
    ((o.wrap n).expose h).run w = (((o.expose h).run w).1.shielded h n, ((o.expose h).run w).2) := by
  have hconverted : ∀ n,
      (o.wrap n).toRenderable.run w = ((o.toRenderable.run w).1.wrap n, (o.toRenderable.run w).2) := by
    intro n
    induction n with
    | zero => rfl
    | succ n ih =>
      show (((o.wrap n).toRenderable.run w).1.intercepted, ((o.wrap n).toRenderable.run w).2) = _
      rw [ih]
      rfl
  have htold : ∀ n (o : DataObject ω) (w : Shared σ), ((o.wrap n).setRegisters h).run w =
      (((o.setRegisters h).run w).1.shielded h n, ((o.setRegisters h).run w).2) := by
    intro n o w
    induction n with
    | zero => rfl
    | succ n ih =>
      show (DataObject.uncacheable (((o.wrap n).setRegisters h).run w).1 (some h),
        (((o.wrap n).setRegisters h).run w).2) = _
      rw [ih]
      rfl
  show (DataObject.setRegisters h ((o.wrap n).toRenderable.run w).1).run ((o.wrap n).toRenderable.run w).2 = _
  rw [hconverted, htold]
  rfl

/-- The state after `n` layers that know the registers. -/
def Shared.tainted (h : Handle) (member : String) : Nat → Shared σ → Shared σ
  | 0, w => w
  | n + 1, w => tainted h member n
      ((w.report (.accessed member (w.registers.get h).depth)).modifyRegisters h Registers.markUncacheable)

theorem DataObject.inward_shielded (member : String) (n : Nat) (o : DataObject ω) (w : Shared σ) :
    (o.shielded h n).inward member w = o.inward member (w.tainted h member n) := by
  induction n generalizing w with
  | zero => rfl
  | succ n ih => exact ih _

end

/-! ## Numbers of layers that make no difference -/

theorem Registers.markUncacheable_markUncacheable (r : Registers) :
    r.markUncacheable.markUncacheable = r.markUncacheable :=
  congrArg (fun stack => { r with stack }) r.stack.markUncacheable_markUncacheable

/-- Registers in `P` stay there when they are marked, and do not tell between numbers of layers that belong together:
if there are any, then on both sides, or the registers are none the worse for marks. -/
structure Tolerates (P : Registers → Prop) (q : Nat → Nat → Prop) : Prop where
  mark : ∀ r, P r → P r.markUncacheable
  none : q 0 0
  taint : ∀ {n n'}, q n n' → (n = 0 ↔ n' = 0) ∨ ∀ r, P r → r.markUncacheable = r

/-- The registers are out of caching mode, and have no frames. -/
structure Registers.Unframed (r : Registers) : Prop where
  plain : r.Plain
  frames : r.stack.frames = []

theorem Registers.markUncacheable_of_unframed {r : Registers} (h : r.Unframed) : r.markUncacheable = r := by
  obtain ⟨caching, ⟨policy, frames⟩, store⟩ := r
  obtain rfl : frames = [] := h.frames
  cases policy <;> rfl

/-- Out of caching mode all numbers belong together. -/
theorem tolerates_unframed : Tolerates Registers.Unframed fun _ _ => True where
  mark _ h := (Registers.markUncacheable_of_unframed h).symm ▸ h
  none := trivial
  taint _ := .inr fun _ => Registers.markUncacheable_of_unframed

/-- In any registers one layer is as good as more. -/
theorem tolerates_true : Tolerates (fun _ => True) fun n n' => n = 0 ↔ n' = 0 where
  mark _ h := h
  none := .rfl
  taint := .inl

namespace Shared

variable {σ : Type} {h : Handle} {P : Registers → Prop} {w w' : Shared σ}

/-- The states are alike, and `P` holds of the registers. -/
structure AlikeIn (h : Handle) (P : Registers → Prop) (w w' : Shared σ) : Prop extends Alike w w' where
  holds : P (w.registers.get h)

/-- The layers after the first one have no effect but on the log. -/
theorem alike_tainted_succ (member : String) (n : Nat) (w : Shared σ) :
    (w.tainted h member (n + 1)).Alike (w.modifyRegisters h Registers.markUncacheable) := by
  induction n generalizing w with
  | zero => exact (Alike.reported w _).modify h _
  | succ n ih =>
    refine (ih _).trans ⟨rfl, fun k => ?_⟩
    by_cases hk : k = h
    · subst hk
      rw [get_modifyRegisters_self, get_modifyRegisters_self, get_modifyRegisters_self]
      exact Registers.markUncacheable_markUncacheable _
    · simp only [modifyRegisters, Bank.get_modify_of_ne _ _ hk]
      rfl

/-- Layers have no effect but on the log if the registers are none the worse for marks. -/
theorem alike_tainted (hmarked : (w.registers.get h).markUncacheable = w.registers.get h) (member : String) (n : Nat) :
    (w.tainted h member n).Alike w := by
  cases n with
  | zero => exact .refl w
  | succ n =>
    refine (alike_tainted_succ member n w).trans ⟨rfl, fun k => ?_⟩
    by_cases hk : k = h
    · subst hk
      rw [get_modifyRegisters_self, hmarked]
    · rw [modifyRegisters, Bank.get_modify_of_ne _ _ hk]

theorem AlikeIn.tainted {q : Nat → Nat → Prop} (ht : Tolerates P q) {n n' : Nat} (hn : q n n') (member : String)
    (hw : w.AlikeIn h P w') : (w.tainted h member n).AlikeIn h P (w'.tainted h member n') := by
  constructor
  · rcases ht.taint hn with hzero | hmarked
    · cases n with
      | zero =>
        obtain rfl := hzero.mp rfl
        exact hw.toAlike
      | succ n =>
        obtain ⟨n', rfl⟩ := Nat.exists_eq_succ_of_ne_zero fun hn' => absurd (hzero.mpr hn') (Nat.succ_ne_zero n)
        exact (alike_tainted_succ member n w).trans
          ((hw.modify h _).trans (alike_tainted_succ member n' w').symm)
    · have hmarked := hmarked _ hw.holds
      have hmarked' := hmarked
      rw [hw.registers h] at hmarked'
      exact (alike_tainted hmarked member n).trans (hw.trans (alike_tainted hmarked' member n').symm)
  · cases n with
    | zero => exact hw.holds
    | succ n =>
      rw [(alike_tainted_succ member n w).registers h, get_modifyRegisters_self]
      exact ht.mark _ hw.holds

end Shared

/-! ## Outputs -/

section

variable {ω σ : Type} {h : Handle} {P : Registers → Prop} {q : Nat → Nat → Prop}

theorem DataObject.alikeIn_inward (ht : Tolerates P q) (member : String) (o : DataObject ω) {w w' : Shared σ}
    (hw : w.AlikeIn h P w') : (o.inward member w).AlikeIn h P (o.inward member w') := by
  constructor
  · have hshared := hw.toAlike
    clear hw
    induction o generalizing w w' with
    | bare o => exact hshared
    | uncacheable o registers ih => exact ih (DataObject.alike_taint member registers w w' hshared).2
  · exact within_inward (bound_staysIn ht.mark) member o w hw.holds

theorem Run.Related.alikeIn {α : Type} {p : α → α → Prop} {x y : ObjectRun σ α} (hx : Run.Related Shared.Alike p x y)
    (hP : Run.Within (Shared.registersAt h) (Registers.StaysIn P) x) : Run.Related (Shared.AlikeIn h P) p x y :=
  fun w w' hw => ⟨(hx w w' hw.toAlike).1, (hx w w' hw.toAlike).2, hP w hw.holds⟩

/-- Numbers of layers that belong together make no difference to an access. -/
theorem DataObject.alikeIn_access {α : Type} {act : ω → ObjectRun σ α} (ht : Tolerates P q) (member : String)
    {o : DataObject ω} (ha : Run.Related Shared.Alike Eq (act o.core) (act o.core))
    (hin : Run.Within (Shared.registersAt h) (Registers.StaysIn P) (act o.core)) {n n' : Nat} (hn : q n n') :
    Run.Related (Shared.AlikeIn h P) Eq ((o.shielded h n).access member act) ((o.shielded h n').access member act) := by
  intro w w' hw
  rw [access_run, access_run, core_shielded, core_shielded, inward_shielded, inward_shielded]
  exact ha.alikeIn hin _ _ (alikeIn_inward ht member o (hw.tainted ht hn member))

/-- The values are the same but for the number of layers that know the registers, and the numbers belong together. -/
inductive Value.Rewrapped (h : Handle) (q : Nat → Nat → Prop) : Value ω → Value ω → Prop
  | json (j : Json) : Rewrapped h q (.json j) (.json j)
  | object (o : DataObject ω) {n n' : Nat} (hn : q n n') :
      Rewrapped h q (.object (o.shielded h n)) (.object (o.shielded h n'))

namespace Value

variable {v v' : Value ω} {held : ω → Prop}

theorem rewrapped_refl (ht : Tolerates P q) (v : Value ω) : v.Rewrapped h q v := by
  cases v with
  | json j => exact .json j
  | object o =>
    have hnone : (Value.object (o.shielded h 0)).Rewrapped h q (.object (o.shielded h 0)) := .object o ht.none
    exact hnone

variable [DataModel ω σ]

theorem Rewrapped.get (hv : v.Rewrapped h q v') (ht : Tolerates P q) (hl : IgnoresLog ω)
    (hc : Confined (Registers.StaysIn P) h held) (hin : v.In held) (key : String) :
    Run.Related (Shared.AlikeIn h P) (fun a b => a = b ∧ a.In held) (v.get key) (v'.get key) := by
  refine Run.Related.and_yields (q := Eq) ?_ fun w a w' hr => in_get hc hin hr
  cases hv with
  | json j => exact Run.related_pure rfl
  | object o hn =>
    have hheld : held o.core := DataObject.core_shielded (h := h) _ o ▸ hin _ rfl
    exact DataObject.alikeIn_access ht key (hl.invoke o.core key) (hc.invoke o.core hheld key) hn

theorem Rewrapped.path (hv : v.Rewrapped h q v') (ht : Tolerates P q) (hl : IgnoresLog ω)
    (hc : Confined (Registers.StaysIn P) h held) (hin : v.In held) (keys : List String) :
    Run.Related (Shared.AlikeIn h P) Eq (do (← v.getAll keys).render) (do (← v'.getAll keys).render) := by
  induction keys generalizing v v' with
  | nil =>
    cases hv with
    | json j => exact Run.related_pure rfl
    | object o hn =>
      have hheld : held o.core := DataObject.core_shielded (h := h) _ o ▸ hin _ rfl
      exact DataObject.alikeIn_access ht "to_output" (hl.toOutput o.core) (hc.toOutput o.core hheld) hn
  | cons key keys ih =>
    rw [path_cons, path_cons]
    refine (hv.get ht hl hc hin key).bind fun a b hab => ?_
    obtain ⟨rfl, hin⟩ := hab
    exact ih (rewrapped_refl ht a) hin

end Value

/-- The contexts are the same but for numbers of layers that belong together. -/
structure Context.Rewrapped (q : Nat → Nat → Prop) (ctx ctx' : Context ω) : Prop where
  registers : ctx'.registers = ctx.registers
  includeLimit : ctx'.includeLimit = ctx.includeLimit
  lookup : ∀ name, (ctx.lookup name).Rewrapped ctx.registers q (ctx'.lookup name)

variable {ctx ctx' : Context ω}

theorem Context.rewrapped_refl (ht : Tolerates P q) (ctx : Context ω) : ctx.Rewrapped q ctx :=
  ⟨rfl, rfl, fun _ => Value.rewrapped_refl ht _⟩

/-- Outputs end alike in both contexts. -/
theorem Context.Rewrapped.evaluate [DataModel ω σ] (hx : ctx.Rewrapped q ctx') (ht : Tolerates P q)
    (hl : IgnoresLog ω) (hc : ctx.Confined (Registers.StaysIn P)) (v : Variable) :
    Run.Related (Shared.AlikeIn ctx.registers P) Eq (ctx.evaluate v) (ctx'.evaluate v) := by
  obtain ⟨held, hheld, hin⟩ := hc
  exact (hx.lookup v.name).path ht hl hheld (hin v.name) v.members

end

/-! ## Renders -/

section

variable {ω σ : Type} {h : Handle} {P : Registers → Prop} {q : Nat → Nat → Prop} {ctx ctx' : Context ω}

/-- The shared states are alike, with registers of which `P` holds, and the rest is the same. -/
structure World.AlikeIn (h : Handle) (P : Registers → Prop) (w w' : World σ) : Prop where
  shared : w.toShared.AlikeIn h P w'.toShared
  source : w.source = w'.source
  depth : w.includeDepth = w'.includeDepth

theorem World.congruent_alikeIn : Congruent (fun _ => True) (World.AlikeIn (σ := σ) h P) where
  depth hw := hw.depth
  atDepth _ hw := ⟨hw.shared, hw.source, rfl⟩
  read _ hw := ⟨by rw [hw.source], hw.shared, by rw [hw.source], hw.depth⟩
  report _ hw := ⟨⟨hw.shared.report _ _, hw.shared.holds⟩, hw.source, hw.depth⟩

theorem World.coupled_alikeIn : Coupled h h (fun _ => True) (World.AlikeIn (σ := σ) h fun _ => True) where
  toCongruent := congruent_alikeIn
  registers hw := hw.shared.registers h
  modify _ hw := ⟨⟨hw.shared.modify h _, trivial⟩, hw.source, hw.depth⟩

theorem World.related_lift {α β : Type} {p : α → β → Prop} {x : ObjectRun σ α} {y : ObjectRun σ β}
    (hx : Run.Related (Shared.AlikeIn h P) p x y) : Run.Related (World.AlikeIn h P) p (lift x) (lift y) :=
  fun _ _ hw => ⟨(hx _ _ hw.shared).1, (hx _ _ hw.shared).2, hw.source, hw.depth⟩

/-- Out of caching mode on both sides, the cache-aware layers hand an inclusion on. -/
theorem related_runLayers_of_plain {R : World σ → World σ → Prop}
    (hplain : ∀ {w w'}, R w w' → (w.registers.get ctx.registers).Plain ∧ (w'.registers.get ctx'.registers).Plain)
    {tag : Inclusion} {native native' : RenderRun σ String} (hn : Run.Related R Eq native native')
    (layers : List Layer) : Run.Related R Eq (runLayers ctx tag native layers) (runLayers ctx' tag native' layers) := by
  induction layers with
  | nil => exact hn
  | cons layer layers ih =>
    cases layer with
    | cacheAware =>
      intro w w' hw
      obtain ⟨hoff, hoff'⟩ := hplain hw
      rw [runLayers, runLayers, cacheAware_run_of_plain hoff, cacheAware_run_of_plain hoff']
      exact ih w w' hw
    | custom reply => exact Reply.related_follow ih (reply tag)

namespace Environment

variable [DataModel ω σ]

/-- Out of caching mode the numbers of layers make no difference to nodes. -/
theorem related_renderNodes_unframed (hx : ctx.Rewrapped (fun _ _ => True) ctx') (hl : IgnoresLog ω)
    (hc : ctx.Confined (Registers.StaysIn Registers.Unframed)) (env : Environment) (t : Template) :
    Run.Related (World.AlikeIn (σ := σ) ctx.registers Registers.Unframed) Eq (env.renderNodes ctx t)
      (env.renderNodes ctx' t) := by
  have hevaluate := fun v => related_lift (hx.evaluate tolerates_unframed hl hc v)
  have hplain : ∀ {w w' : World σ}, w.AlikeIn ctx.registers Registers.Unframed w' →
      (w.registers.get ctx.registers).Plain ∧ (w'.registers.get ctx'.registers).Plain := by
    intro w w' hw
    rw [hx.registers, ← hw.shared.registers]
    exact ⟨hw.shared.holds.plain, hw.shared.holds.plain⟩
  have hlimit := hx.includeLimit.symm
  exact related_renderNodes_of_expandWithin congruent_alikeIn hlimit joins_eq hevaluate
    (related_expandWithin_of_runLayers congruent_alikeIn hlimit hevaluate
      fun _ _ _ _ hn => related_runLayers_of_plain hplain hn env.layers) fun _ _ => trivial

/-- It makes no difference to nodes whether there is one layer or more. -/
theorem related_renderNodes_rewrapped (hx : ctx.Rewrapped (fun n n' => n = 0 ↔ n' = 0) ctx') (hl : IgnoresLog ω)
    (env : Environment) (t : Template) :
    Run.Related (World.AlikeIn (σ := σ) ctx.registers fun _ => True) Eq (env.renderNodes ctx t)
      (env.renderNodes ctx' t) := by
  have hc : ctx.Confined (Registers.StaysIn fun _ => True) := by
    refine ⟨fun _ => True, ?_, fun _ _ _ => trivial⟩
    exact ⟨fun _ _ _ _ _ => trivial, fun _ _ _ _ => trivial, fun _ _ _ _ _ _ => trivial⟩
  have hR : Coupled ctx.registers ctx'.registers (fun _ => True)
      (World.AlikeIn (σ := σ) ctx.registers fun _ => True) := by
    rw [hx.registers]
    exact coupled_alikeIn
  exact related_renderNodes hR hx.includeLimit.symm (fun v => related_lift (hx.evaluate tolerates_true hl hc v)) env
    fun _ _ => trivial

omit [DataModel ω σ] in
theorem renderStart_rewrapped (hx : ctx.Rewrapped q ctx') (w : World σ) : renderStart ctx' w = renderStart ctx w := by
  rw [renderStart, renderStart, hx.registers]

theorem render_unframed (hx : ctx.Rewrapped (fun _ _ => True) ctx') (hl : IgnoresLog ω)
    (hc : ctx.Confined (Registers.StaysIn Registers.Unframed)) (env : Environment) (t : Template) {w : World σ}
    (hw : (w.registers.get ctx.registers).Plain) :
    ((env.render ctx t).run w).1 = ((env.render ctx' t).run w).1 ∧
      World.AlikeIn ctx.registers Registers.Unframed ((env.render ctx t).run w).2 ((env.render ctx' t).run w).2 := by
  have hunframed : ((renderStart ctx w).registers.get ctx.registers).Unframed := by
    rw [get_renderStart]
    exact ⟨hw, rfl⟩
  have hstart : World.AlikeIn ctx.registers Registers.Unframed (renderStart ctx w) (renderStart ctx' w) := by
    rw [renderStart_rewrapped hx]
    exact ⟨⟨.refl _, hunframed⟩, rfl, rfl⟩
  obtain ⟨hans, hend⟩ := related_render congruent_alikeIn (related_renderNodes_unframed hx hl hc env t) hstart
  exact ⟨hans.eq, hend⟩

theorem render_rewrapped (hx : ctx.Rewrapped (fun n n' => n = 0 ↔ n' = 0) ctx') (hl : IgnoresLog ω) (env : Environment)
    (t : Template) (w : World σ) :
    ((env.render ctx t).run w).1 = ((env.render ctx' t).run w).1 ∧
      World.AlikeIn ctx.registers (fun _ => True) ((env.render ctx t).run w).2 ((env.render ctx' t).run w).2 := by
  have hstart : World.AlikeIn ctx.registers (fun _ => True) (renderStart ctx w) (renderStart ctx' w) := by
    rw [renderStart_rewrapped hx]
    exact ⟨⟨.refl _, trivial⟩, rfl, rfl⟩
  obtain ⟨hans, hend⟩ := related_render congruent_alikeIn (related_renderNodes_rewrapped hx hl env t) hstart
  exact ⟨hans.eq, hend⟩

theorem precompile_rewrapped (hx : ctx.Rewrapped (fun n n' => n = 0 ↔ n' = 0) ctx') (hl : IgnoresLog ω)
    (env : Environment) (t : Template) (w : World σ) :
    ((env.precompile ctx t).run w).1 = ((env.precompile ctx' t).run w).1 ∧
      World.AlikeIn ctx.registers (fun _ => True) ((env.precompile ctx t).run w).2
        ((env.precompile ctx' t).run w).2 := by
  have hR : Coupled ctx.registers ctx'.registers (fun _ => True)
      (World.AlikeIn (σ := σ) ctx.registers fun _ => True) := by
    rw [hx.registers]
    exact coupled_alikeIn
  obtain ⟨hans, hend⟩ := related_precompile hR (related_renderNodes_rewrapped hx hl env t) w w
    ⟨⟨.refl _, trivial⟩, rfl, rfl⟩
  exact ⟨hans.eq, hend⟩

end Environment

end

/-! ## Preparing objects in layers -/

/-- An object that goes into scope behind layers. -/
structure Exposure (ω : Type) where
  name : String
  object : DataObject ω
  /-- The number of layers that it is put behind. -/
  layers : Nat

/-- The same object under the same name, behind numbers of layers that belong together. -/
structure Exposure.Rewraps {ω : Type} (q : Nat → Nat → Prop) (x x' : Exposure ω) : Prop where
  name : x.name = x'.name
  object : x.object = x'.object
  layers : q x.layers x'.layers

namespace Context

variable {ω σ : Type} {q : Nat → Nat → Prop} {ctx ctx' : Context ω}

section

variable [Exposable ω σ]

/-- Puts objects behind layers, prepares them and puts them into scope, one after the other. -/
def exposeAll (ctx : Context ω) : List (Exposure ω) → StateM (Shared σ) (Context ω)
  | [] => pure ctx
  | x :: xs => do (← ctx.assignObject x.name (x.object.wrap x.layers)).exposeAll xs

/-- Prepares objects and then does something in the context. -/
def exposing {α : Type} (ctx : Context ω) (xs : List (Exposure ω)) (body : Context ω → RenderRun σ α) :
    RenderRun σ α := fun w =>
  let (prepared, shared) := (ctx.exposeAll xs).run w.toShared
  (body prepared).run { w with toShared := shared }

theorem exposeAll_cons_run (ctx : Context ω) (x : Exposure ω) (xs : List (Exposure ω)) (w : Shared σ) :
    (ctx.exposeAll (x :: xs)).run w =
      ((ctx.assign x.name (.object (((x.object.expose ctx.registers).run w).1.shielded ctx.registers
        x.layers))).exposeAll xs).run ((x.object.expose ctx.registers).run w).2 := by
  show ((ctx.assign x.name (.object (((x.object.wrap x.layers).expose ctx.registers).run w).1)).exposeAll xs).run
    (((x.object.wrap x.layers).expose ctx.registers).run w).2 = _
  rw [DataObject.expose_wrap]

theorem registers_exposeAll (ctx : Context ω) (xs : List (Exposure ω)) (w : Shared σ) :
    ((ctx.exposeAll xs).run w).1.registers = ctx.registers := by
  induction xs generalizing ctx w with
  | nil => rfl
  | cons x xs ih => exact ih _ _

theorem Rewrapped.assign (hx : ctx.Rewrapped q ctx') (name : String) (o : DataObject ω) {n n' : Nat} (hn : q n n') :
    (ctx.assign name (.object (o.shielded ctx.registers n))).Rewrapped q
      (ctx'.assign name (.object (o.shielded ctx.registers n'))) := by
  refine ⟨hx.registers, hx.includeLimit, fun key => ?_⟩
  rw [lookup_assign, lookup_assign]
  split
  · exact .object o hn
  · exact hx.lookup key

/-- The objects cannot tell how many layers they are prepared behind. -/
theorem Rewrapped.exposeAll (hx : ctx.Rewrapped q ctx') {xs xs' : List (Exposure ω)}
    (hxs : List.Forall₂ (Exposure.Rewraps q) xs xs') (w : Shared σ) :
    ((ctx.exposeAll xs).run w).1.Rewrapped q ((ctx'.exposeAll xs').run w).1 ∧
      ((ctx.exposeAll xs).run w).2 = ((ctx'.exposeAll xs').run w).2 := by
  induction hxs generalizing ctx ctx' w with
  | nil => exact ⟨hx, rfl⟩
  | @cons x x' xs xs' hhead _ ih =>
    rw [exposeAll_cons_run, exposeAll_cons_run, ← hhead.name, ← hhead.object, hx.registers]
    exact ih (hx.assign x.name _ hhead.layers) _

/-- What is done in the contexts cannot tell the numbers of layers apart if it cannot tell the prepared contexts
apart. -/
theorem exposing_rewrapped {P : Registers → Prop} (ht : Tolerates P q) {xs xs' : List (Exposure ω)}
    (hxs : List.Forall₂ (Exposure.Rewraps q) xs xs') {α : Type} {body : Context ω → RenderRun σ α}
    {R : World σ → World σ → Prop} {w : World σ}
    (hbody : ∀ c', ((ctx.exposeAll xs).run w.toShared).1.Rewrapped q c' →
      ((body ((ctx.exposeAll xs).run w.toShared).1).run
          { w with toShared := ((ctx.exposeAll xs).run w.toShared).2 }).1 =
        ((body c').run { w with toShared := ((ctx.exposeAll xs).run w.toShared).2 }).1 ∧
      R ((body ((ctx.exposeAll xs).run w.toShared).1).run
          { w with toShared := ((ctx.exposeAll xs).run w.toShared).2 }).2
        ((body c').run { w with toShared := ((ctx.exposeAll xs).run w.toShared).2 }).2) :
    ((ctx.exposing xs body).run w).1 = ((ctx.exposing xs' body).run w).1 ∧
      R ((ctx.exposing xs body).run w).2 ((ctx.exposing xs' body).run w).2 := by
  obtain ⟨hctx, hshared⟩ := (rewrapped_refl ht ctx).exposeAll hxs w.toShared
  have h := hbody _ hctx
  have hrun' : (ctx.exposing xs' body).run w = (body ((ctx.exposeAll xs').run w.toShared).1).run
      { w with toShared := ((ctx.exposeAll xs).run w.toShared).2 } := by
    rw [hshared]
    rfl
  rw [hrun']
  exact h

end

end Context

/-! ## Watched exposures -/

section

variable {ω σ : Type}

theorem DataObject.map_wrap {ω' : Type} (f : ω → ω') (n : Nat) (o : DataObject ω) :
    (o.wrap n).map f = (o.map f).wrap n := by
  induction n with
  | zero => rfl
  | succ n ih => exact congrArg DataObject.intercepted ih

theorem Context.watched_assign (ctx : Context ω) (name : String) (v : Value ω) :
    (ctx.assign name v).watched = ctx.watched.assign name (v.map .mk) := by
  have hassigns : (ctx.assign name v).watched.assigns = (ctx.watched.assign name (v.map .mk)).assigns := by
    refine NameMap.ext_get? fun key => ?_
    simp only [watched, assign, NameMap.get?_map, NameMap.get?_insert]
    split <;> rfl
  exact congrArg (fun assigns => { ctx.watched with assigns }) hassigns

/-- The object is watched as well. -/
def Exposure.watched (x : Exposure ω) : Exposure (Watched ω) :=
  { x with object := x.object.map .mk }

theorem Exposure.Rewraps.watched {q : Nat → Nat → Prop} {x x' : Exposure ω} (hx : x.Rewraps q x') :
    x.watched.Rewraps q x'.watched :=
  ⟨hx.name, congrArg (DataObject.map Watched.mk) hx.object, hx.layers⟩

variable [DataModel ω σ]

/-- The context with the prepared objects is watched, just as the one that they went into. -/
theorem Watched.follows_exposeAll (ctx : Context ω) (xs : List (Exposure ω)) :
    Follows Context.watched (ctx.watched.exposeAll (xs.map Exposure.watched)) (σ := σ) (ctx.exposeAll xs) := by
  induction xs generalizing ctx with
  | nil => exact follows_pure ctx rfl
  | cons x xs ih =>
    have hobject := follows_expose (σ := σ) ctx.registers (x.object.wrap x.layers)
    rw [DataObject.map_wrap] at hobject
    have hassign : Follows Context.watched
        (ctx.watched.assignObject x.watched.name (x.watched.object.wrap x.watched.layers)) (σ := σ)
        (ctx.assignObject x.name (x.object.wrap x.layers)) :=
      hobject.bind fun o => follows_pure _ (ctx.watched_assign x.name (.object o)).symm
    exact hassign.bind fun ctx => ih ctx

/-- The calls to objects when they are prepared and when then something is done in the context, latest first. -/
def Context.callsExposing {α : Type} (ctx : Context ω) (xs : List (Exposure ω))
    (body : Context (Watched ω) → RenderRun (Watch ω σ) α) (w : World σ) : List (Call ω) :=
  ((ctx.watched.exposing (xs.map Exposure.watched) body).run (w.watched [])).2.objects.calls

namespace Environment

variable {xs xs' : List (Exposure ω)} {ctx : Context ω}

/-- A render out of caching mode, of objects behind any numbers of layers. -/
theorem render_exposing_unframed (hl : IgnoresLog ω) (hxs : List.Forall₂ (Exposure.Rewraps fun _ _ => True) xs xs')
    (env : Environment) (t : Template) {w : World σ}
    (hplain : (((ctx.exposeAll xs).run w.toShared).2.registers.get ctx.registers).Plain)
    (hc : ((ctx.exposeAll xs).run w.toShared).1.Confined (Registers.StaysIn Registers.Unframed)) :
    ((ctx.exposing xs (env.render · t)).run w).1 = ((ctx.exposing xs' (env.render · t)).run w).1 ∧
      World.AlikeIn ctx.registers Registers.Unframed ((ctx.exposing xs (env.render · t)).run w).2
        ((ctx.exposing xs' (env.render · t)).run w).2 := by
  have hregisters := ctx.registers_exposeAll xs w.toShared
  refine Context.exposing_rewrapped tolerates_unframed hxs fun c' hc' => ?_
  rw [← hregisters] at hplain ⊢
  exact render_unframed hc' hl hc env t hplain

/-- Something that is done in a context, of objects behind one layer or more. -/
theorem exposing_layered {α : Type} {body : Context ω → RenderRun σ α}
    (hbody : ∀ {c c' : Context ω}, c.Rewrapped (fun n n' => n = 0 ↔ n' = 0) c' → ∀ w,
      ((body c).run w).1 = ((body c').run w).1 ∧
        World.AlikeIn c.registers (fun _ => True) ((body c).run w).2 ((body c').run w).2)
    (hxs : List.Forall₂ (Exposure.Rewraps fun n n' => n = 0 ↔ n' = 0) xs xs') (ctx : Context ω) (w : World σ) :
    ((ctx.exposing xs body).run w).1 = ((ctx.exposing xs' body).run w).1 ∧
      World.AlikeIn ctx.registers (fun _ => True) ((ctx.exposing xs body).run w).2
        ((ctx.exposing xs' body).run w).2 := by
  have hregisters := ctx.registers_exposeAll xs w.toShared
  refine Context.exposing_rewrapped tolerates_true hxs fun c' hc' => ?_
  rw [← hregisters]
  exact hbody hc' _

/-- Out of caching mode it makes no difference to the result of a render and to the calls to objects how many layers
these are put behind, as long as they stay out of this mode and put no frames on the stack. In either mode, it makes
none to the result, the registers and the calls whether there is one layer or more. -/
theorem layers_indistinct (hl : IgnoresLog ω) (env : Environment) (ctx : Context ω) (t : Template) (w : World σ)
    (xs xs' : List (Exposure ω)) :
    (List.Forall₂ (Exposure.Rewraps fun _ _ => True) xs xs' →
      (((ctx.exposeAll xs).run w.toShared).2.registers.get ctx.registers).caching = false →
      ((ctx.exposeAll xs).run w.toShared).1.Confined (Registers.StaysIn Registers.Unframed) →
      ((ctx.exposing xs (env.render · t)).run w).1 = ((ctx.exposing xs' (env.render · t)).run w).1 ∧
        ctx.callsExposing xs (env.render · t) w = ctx.callsExposing xs' (env.render · t) w) ∧
    (List.Forall₂ (Exposure.Rewraps fun n n' => n = 0 ↔ n' = 0) xs xs' →
      (((ctx.exposing xs (env.render · t)).run w).1 = ((ctx.exposing xs' (env.render · t)).run w).1 ∧
        ((ctx.exposing xs (env.render · t)).run w).2.registers.get ctx.registers =
          ((ctx.exposing xs' (env.render · t)).run w).2.registers.get ctx.registers ∧
        ctx.callsExposing xs (env.render · t) w = ctx.callsExposing xs' (env.render · t) w) ∧
      ((ctx.exposing xs (env.precompile · t)).run w).1 = ((ctx.exposing xs' (env.precompile · t)).run w).1 ∧
        ctx.callsExposing xs (env.precompile · t) w = ctx.callsExposing xs' (env.precompile · t) w) := by
  have hwatched : ∀ {q : Nat → Nat → Prop}, List.Forall₂ (Exposure.Rewraps q) xs xs' →
      List.Forall₂ (Exposure.Rewraps q) (xs.map Exposure.watched) (xs'.map Exposure.watched) := fun hxs =>
    List.forall₂_map_left_iff.mpr (List.forall₂_map_right_iff.mpr (hxs.imp fun _ _ hx => hx.watched))
  constructor
  · intro hxs hplain hc
    obtain ⟨hprepared, hshared⟩ := Watched.follows_exposeAll ctx xs (w.watched []).toShared
    have hplain' : (((ctx.watched.exposeAll (xs.map Exposure.watched)).run
        (w.watched []).toShared).2.unwatched.registers.get ctx.registers).Plain := hshared ▸ hplain
    have hc' : ((ctx.watched.exposeAll (xs.map Exposure.watched)).run (w.watched []).toShared).1.Confined
        (Registers.StaysIn Registers.Unframed) := hprepared ▸ hc.watched
    obtain ⟨hresult, -⟩ := render_exposing_unframed hl hxs env t hplain hc
    obtain ⟨-, hend⟩ := render_exposing_unframed hl.watched (hwatched hxs) env t hplain' hc'
    exact ⟨hresult, congrArg Watch.calls hend.shared.objects⟩
  · intro hxs
    obtain ⟨hresult, hend⟩ := exposing_layered (fun hc u => render_rewrapped hc hl env t u) hxs ctx w
    obtain ⟨-, hcalls⟩ := exposing_layered (fun hc u => render_rewrapped hc hl.watched env t u) (hwatched hxs)
      ctx.watched (w.watched [])
    obtain ⟨hresult', -⟩ := exposing_layered (fun hc u => precompile_rewrapped hc hl env t u) hxs ctx w
    obtain ⟨-, hcalls'⟩ := exposing_layered (fun hc u => precompile_rewrapped hc hl.watched env t u) (hwatched hxs)
      ctx.watched (w.watched [])
    exact ⟨⟨hresult, hend.shared.registers _, congrArg Watch.calls hcalls.shared.objects⟩, hresult',
      congrArg Watch.calls hcalls'.shared.objects⟩

end Environment

end

/-! ## Objects that can tell -/

namespace Sample

/-- A context with nothing in scope. -/
def vacant {ω : Type} : Context ω :=
  { registers := ⟨0⟩, includeLimit := 8 }

/-- A user who goes into scope behind layers. -/
def behind {ω : Type} (user : ω) (layers : Nat) : List (Exposure ω) :=
  [⟨"user", .bare user, layers⟩]

theorem behind_rewraps {ω : Type} {q : Nat → Nat → Prop} (user : ω) (n n' : Nat) (hn : q n n') :
    List.Forall₂ (Exposure.Rewraps q) (behind user n) (behind user n') :=
  .cons ⟨rfl, rfl, hn⟩ .nil

/-- Ann, behind any number of layers in a render and behind any but none in a precompilation. -/
theorem layers_indistinct_page :
    (∀ n, ((vacant.exposing (behind { script := script "Ann", cell := 0 : Scripted } n)
        (Environment.cached.render · page)).run world).1 = .ok ": Hi Ann!!") ∧
      ∀ n, ((vacant.exposing (behind { script := script "Ann", cell := 0 : Scripted } (n + 1))
        (Environment.cached.precompile · page)).run world).1.map Precompiled.source =
          .ok ": \x7b% include 'row' %\x7d!" := by
  constructor
  · intro n
    have hconfined : ((vacant.exposeAll (behind { script := script "Ann", cell := 0 : Scripted } 0)).run
        world.toShared).1.Confined (Registers.StaysIn Registers.Unframed) := by
      refine (Context.pure_of_steady fun key => ?_).1.confined (bound_staysIn tolerates_unframed.mark)
      show ((vacant.assign "user"
        (.object (.bare { script := script "Ann", cell := 0, registers := some ⟨0⟩ : Scripted }))).lookup key).In _
      rw [Context.lookup_assign]
      split
      · rintro o ⟨⟩
        exact steady_script "Ann"
      · rintro o ⟨⟩
    obtain ⟨hresult, -⟩ := (Environment.layers_indistinct Scripted.ignoresLog .cached vacant page world _ _).1
      (behind_rewraps _ 0 n trivial) (by cbv) hconfined
    rw [← hresult]
    cbv
  · intro n
    obtain ⟨-, hresult, -⟩ := (Environment.layers_indistinct Scripted.ignoresLog .cached vacant page world _ _).2
      (behind_rewraps { script := script "Ann", cell := 0 : Scripted } 1 (n + 1) (by omega))
    rw [← hresult]
    cbv

/-- A user who gets the render into caching mode when her name is read. -/
def starter : Scripted where
  script := .mk "user" [("name", .mk [.cachingOn] (.json (.string "Ann")))] none none 0 none false
  cell := 0

/-- An object that puts a frame on the stack when it is accessed, and answers whether the one before was cacheable. -/
structure Framer where
  registers : Handle

instance : DataModel Framer Unit where
  setRegisters o h := pure { o with registers := h }
  toRenderable o := pure (.bare o)
  invoke o member := do
    let r ← Run.look fun w => w.registers.get o.registers
    Run.modify fun w => w.modifyRegisters o.registers (·.mapStack (·.push member))
    return .json (.bool r.isCacheable)
  toOutput _ := pure ""

/-- A page that looks at two members. -/
def twoLooks : Template :=
  ⟨[.output ⟨"user", ["first"]⟩, .output ⟨"user", ["second"]⟩]⟩

/-- Renders out of caching mode can tell whether there is a layer if an object gets into this mode or puts frames on the
stack. -/
theorem layers_told_apart :
    (world.registers.get ⟨0⟩).caching = false ∧
      ((vacant.exposing (behind starter 0) (Environment.cached.render · greeting)).run world).1 = .ok "AnnHi Ann!" ∧
      ((vacant.exposing (behind starter 1) (Environment.cached.render · greeting)).run world).1 =
        .ok "Ann\x7b% include 'row' %\x7d" ∧
      ((vacant.exposing (behind (Framer.mk ⟨0⟩) 0) (Environment.native.render · twoLooks)).run
        { world with objects := () }).1 = .ok "truetrue" ∧
      ((vacant.exposing (behind (Framer.mk ⟨0⟩) 1) (Environment.native.render · twoLooks)).run
        { world with objects := () }).1 = .ok "truefalse" := by
  refine ⟨rfl, ?_, ?_, ?_, ?_⟩
  all_goals cbv

end Sample

end HybridTemplate
