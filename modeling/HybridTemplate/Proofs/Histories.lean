import HybridTemplate.Proofs.Lowering
import HybridTemplate.Proofs.Noninterference
import HybridTemplate.Proofs.Related
import HybridTemplate.Proofs.Replay

/-!
# Requests do not depend on the history

A context is asked to render, to precompile, to replay and to change its mode, time and again. Whatever a request does
to frames, artifacts, mode, depth and source is undone at its end or at the start of the next one, whether it succeeds
or not.

* `Request`, `Request.performAll` — a request, and one after the other;
* `Request.Leaves` — what a request leaves as it was. `leaves_perform` is the step, `lasting_performAll` the whole
  history;
* `InStep` — two states of two contexts whose registers are the same, or are so once they are fresh. The next request
  cannot tell such states apart, since it starts from fresh registers (`perform_inStep`);
* `history_independent` — after any history a request is answered as in a context that is new (`Renews`).
-/

namespace HybridTemplate

open Registers (Handle)
open World

/-! ## Requests -/

/-- What a context is asked to do. -/
inductive Request where
  | render (env : Environment) (t : Template)
  | precompile (env : Environment) (t : Template)
  | replay (env : Environment) (p : Precompiled)
  | setCaching (caching : Bool)

/-- What a request is answered with. -/
inductive Response where
  | text (text : String)
  | precompiled (p : Precompiled)
  | done
deriving DecidableEq

namespace Request

variable {ω σ : Type} [DataModel ω σ]

/-- Performs a request. -/
def perform (ctx : Context ω) : Request → RenderRun σ Response
  | render env t => .text <$> env.render ctx t
  | precompile env t => .precompiled <$> env.precompile ctx t
  | replay env p => .text <$> p.replay env ctx
  | setCaching caching => (fun _ => .done) <$> modifyRegisters ctx.registers (·.setCaching caching)

/-- The state after requests one after the other, each of which succeeds or fails. -/
def performAll (ctx : Context ω) (requests : List Request) (w : World σ) : World σ :=
  requests.foldl (fun w q => ((q.perform ctx).run w).2) w

/-- The mode after a request. -/
def modeAfter (caching : Bool) : Request → Bool
  | setCaching caching => caching
  | _ => caching

/-- The request gets as far as to start from fresh registers. -/
def Starts : Request → Prop
  | render _ _ => True
  | precompile _ _ => True
  | replay _ p => ∃ t, p.parse = .ok t
  | setCaching _ => False

end Request

/-! ## What a request leaves as it was -/

namespace Registers

/-- The mode is the same, and the stack has the same frames with flags that have gone down at most. -/
structure InMode (r r' : Registers) : Prop where
  caching : r'.caching = r.caching
  lowers : r.Lowers r'

theorem bracketed_inMode : Bracketed InMode where
  refl r := ⟨rfl, bound_lowers.refl r⟩
  trans h₁ h₂ := ⟨h₂.caching.trans h₁.caching, bound_lowers.trans h₁.lowers h₂.lowers⟩
  mark r := ⟨rfl, bound_lowers.mark r⟩
  record r f := ⟨rfl, bracketed_lowers.record r f⟩
  store r g := ⟨rfl, bracketed_lowers.store r g⟩
  push h := by
    obtain ⟨f, stack, hp, hkept⟩ := bracketed_lowers.push h.lowers
    exact ⟨f, stack, hp, h.caching, hkept⟩

/-- The policy is the same, and where no inclusion was in progress none is. -/
structure Lasting (r r' : Registers) : Prop where
  policy : r'.policy = r.policy
  depth : r.depth = 0 → r'.depth = 0

theorem Lasting.refl (r : Registers) : r.Lasting r :=
  ⟨rfl, id⟩

theorem Lasting.trans {r₁ r₂ r₃ : Registers} (h₁ : r₁.Lasting r₂) (h₂ : r₂.Lasting r₃) : r₁.Lasting r₃ :=
  ⟨h₂.policy.trans h₁.policy, fun h => h₂.depth (h₁.depth h)⟩

/-- Where a mode was kept from fresh registers on, no inclusion is in progress. -/
theorem InMode.depth_of_reset {r r' : Registers} {caching : Bool} (h : (r.reset.setCaching caching).InMode r') :
    r'.depth = 0 :=
  List.length_eq_zero_iff.mpr (FrameStack.Framewise.frames_eq_nil h.lowers.frames rfl)

end Registers

namespace Environment

variable {ω σ : Type} [DataModel ω σ] {ctx : Context ω}

/-- A render ends in the mode and with the frames of fresh registers. -/
theorem outside_render (hc : ctx.Confined Registers.InMode) (env : Environment) (t : Template) :
    Run.Keeps (Outside (fun r r' => r.reset.InMode r') ctx.registers) (env.render (σ := σ) ctx t) := by
  intro w
  obtain ⟨hanswer, hdepth, hregs⟩ :=
    Registers.bracketed_inMode.keeps_renderNodes hc env t (renderStart ctx w)
  rw [show (renderStart ctx w).registersAt ctx.registers = _ from get_renderStart w] at hregs
  rw [render_run]
  exact ⟨hanswer, hdepth, hregs⟩

/-- A precompilation ends with fresh registers in the mode that was before. -/
theorem outside_precompile (hc : ctx.Confined Registers.InMode) (env : Environment) (t : Template) :
    Run.Keeps (Outside (fun r r' => ∃ r₁, (r.reset.setCaching true).InMode r₁ ∧ r' = r₁.reset.setCaching r.caching)
      ctx.registers) (env.precompile (σ := σ) ctx t) := by
  intro w
  rcases hr : (env.renderNodes ctx t).run (precompileStart ctx w) with ⟨r, w'⟩
  have hnodes := Registers.bracketed_inMode.keeps_renderNodes hc env t (precompileStart ctx w)
  rw [hr] at hnodes
  obtain ⟨hanswer, hdepth, hregs⟩ := hnodes
  rw [show (precompileStart ctx w).registersAt ctx.registers = _ from get_precompileStart w] at hregs
  cases r with
  | error f =>
    rw [precompile_run_of_error hr]
    exact ⟨hanswer, hdepth, _, hregs, get_precompileEnd _ _⟩
  | ok source =>
    obtain ⟨event, hrun⟩ := precompile_run_of_ok hr
    rw [hrun]
    exact ⟨hanswer, hdepth, _, hregs, get_precompileEnd _ _⟩

end Environment

namespace Request

/-- Between the states of a handle before and after the request, the source answers alike, the depth and the policy are
the same, and the mode is the one that it is meant to be. No inclusion is in progress if none was, or if the request got
as far as to start; a precompilation leaves no artifacts. -/
structure Leaves {σ : Type} (q : Request) (h : Handle) (w w' : World σ) : Prop extends
    Outside Registers.Lasting h w w' where
  caching : (w'.registersAt h).caching = q.modeAfter (w.registersAt h).caching
  starts : q.Starts → (w'.registersAt h).depth = 0
  store : ∀ env t, q = precompile env t → (w'.registersAt h).store = none

variable {ω σ : Type} [DataModel ω σ] {ctx : Context ω}

omit [DataModel ω σ] in
/-- What ends in the mode and with the frames of fresh registers leaves what a render should leave. -/
theorem leaves_of_outside {h : Handle} {w w' : World σ} (ho : Outside (fun r r' => r.reset.InMode r') h w w')
    (env : Environment) (t : Template) : (render env t).Leaves h w w' := by
  obtain ⟨hanswer, hdepth, hregs⟩ := ho
  have hzero := Registers.InMode.depth_of_reset hregs
  exact ⟨⟨hanswer, hdepth, hregs.lowers.policy, fun _ => hzero⟩, hregs.caching, fun _ => hzero, nofun⟩

/-- A request leaves what it should leave, whether it succeeds or not. -/
theorem leaves_perform (hc : ctx.Confined Registers.InMode) (q : Request) (w : World σ) :
    q.Leaves ctx.registers w ((q.perform ctx).run w).2 := by
  cases q with
  | render env t =>
    rw [perform, Run.map_run]
    exact leaves_of_outside (Environment.outside_render hc env t w) env t
  | precompile env t =>
    rw [perform, Run.map_run]
    obtain ⟨hanswer, hdepth, r₁, hregs, hend⟩ := Environment.outside_precompile hc env t w
    refine ⟨⟨hanswer, hdepth, ?_, fun _ => ?_⟩, ?_, fun _ => ?_, fun _ _ _ => ?_⟩ <;> rw [hend]
    · exact hregs.lowers.policy
    · rfl
    · rfl
    · rfl
    · rfl
  | replay env p =>
    rw [perform, Run.map_run]
    rcases hparse : p.parse with e | t
    · rw [p.replay_run_of_error hparse]
      refine ⟨⟨rfl, rfl, .refl _⟩, rfl, fun ⟨t, ht⟩ => ?_, nofun⟩
      rw [hparse] at ht
      cases ht
    · obtain ⟨⟨-, hdepth, hregs⟩, hcaching, hstarts, -⟩ := leaves_of_outside
        (Environment.outside_render hc env t { w with source := p.artifacts.toSource }) env t
      rw [p.replay_run hparse]
      exact ⟨⟨rfl, hdepth, hregs⟩, hcaching, fun _ => hstarts trivial, nofun⟩
  | setCaching caching =>
    have hregs : (((setCaching caching).perform ctx).run w).2.registersAt ctx.registers =
        (w.registersAt ctx.registers).setCaching caching := Shared.get_modifyRegisters_self _ _ _
    refine ⟨⟨rfl, rfl, ?_⟩, ?_, False.elim, nofun⟩ <;> rw [hregs]
    · exact ⟨rfl, id⟩
    · rfl

/-- A whole history leaves the source, the depth and the policy as they were; no inclusion is in progress afterwards if
none was before. -/
theorem lasting_performAll (hc : ctx.Confined Registers.InMode) (requests : List Request) (w : World σ) :
    Outside Registers.Lasting ctx.registers w (performAll ctx requests w) := by
  induction requests generalizing w with
  | nil => exact ⟨rfl, rfl, .refl _⟩
  | cons q requests ih =>
    obtain ⟨hanswer₁, hdepth₁, hregs₁⟩ := (leaves_perform hc q w).toOutside
    obtain ⟨hanswer₂, hdepth₂, hregs₂⟩ := ih ((q.perform ctx).run w).2
    exact ⟨hanswer₂.trans hanswer₁, hdepth₂.trans hdepth₁, hregs₁.trans hregs₂⟩

end Request

/-! ## The same request in two contexts -/

/-- Two states in which the registers are the same as far as `g` tells, the depth is the same, and the sources serve the
same catalog. -/
structure InStep {σ σ' : Type} (g : Registers → Registers) (h h' : Handle) (C : Catalog) (w : World σ) (w' : World σ') :
    Prop where
  registers : g (w.registersAt h) = g (w'.registersAt h')
  depth : w.includeDepth = w'.includeDepth
  serves : w.source.Serves C
  serves' : w'.source.Serves C

theorem coupled_inStep {σ₁ σ₂ : Type} {h h' : Handle} {C : Catalog} :
    Coupled h h' (fun _ => True) (InStep id h h' C : World σ₁ → World σ₂ → Prop) where
  depth hw := hw.depth
  atDepth d hw := ⟨hw.registers, rfl, hw.serves, hw.serves'⟩
  read _ hw := by
    refine ⟨?_, hw.registers, hw.depth, hw.serves, hw.serves'⟩
    rw [Source.read, Source.read, hw.serves, hw.serves']
  report e hw := ⟨hw.registers, hw.depth, hw.serves, hw.serves'⟩
  registers hw := hw.registers
  modify := by
    intro w w' g _ hw
    refine ⟨?_, hw.depth, hw.serves, hw.serves'⟩
    rw [World.registersAt, World.registersAt, Shared.get_modifyRegisters_self, Shared.get_modifyRegisters_self]
    have hregs : w.registers.get h = w'.registers.get h' := hw.registers
    rw [hregs]

section

variable {ω σ ω' σ' : Type} [DataModel ω σ] [DataModel ω' σ'] {ctx : Context ω} {ctx' : Context ω'} {C : Catalog}
  {w : World σ} {w' : World σ'}

/-- An output that matches shows the same in both contexts and does the same to the registers. -/
theorem Context.Matches.related {v : Variable} (hv : ctx.Matches ctx' v) :
    Run.Related (InStep id ctx.registers ctx'.registers C) Eq (lift (ctx.evaluate v) : RenderRun σ String)
      (lift (ctx'.evaluate v) : RenderRun σ' String) := by
  obtain ⟨r, m, hs, hs'⟩ := hv
  intro w w' hw
  obtain ⟨hans, hregs⟩ := hs w.toShared
  obtain ⟨hans', hregs'⟩ := hs' w'.toShared
  refine ⟨.of_eq (fun _ => rfl) (hans.trans hans'.symm), ?_, hw.depth, hw.serves, hw.serves'⟩
  exact hregs.trans ((congrArg (·.absorb m ∅) hw.registers).trans hregs'.symm)

namespace Environment

theorem related_renderNodes_of_matches (hlimit : ctx.includeLimit = ctx'.includeLimit) (hv : ∀ v, ctx.Matches ctx' v)
    (env : Environment) (t : Template) :
    Run.Related (InStep id ctx.registers ctx'.registers C) Eq (env.renderNodes ctx t : RenderRun σ String)
      (env.renderNodes ctx' t : RenderRun σ' String) :=
  related_renderNodes coupled_inStep hlimit (fun v => (hv v).related) env fun _ _ => trivial

/-- A render starts from fresh registers, so it only matters what these are like. -/
theorem render_inStep (hlimit : ctx.includeLimit = ctx'.includeLimit) (hv : ∀ v, ctx.Matches ctx' v)
    (hw : InStep Registers.reset ctx.registers ctx'.registers C w w') (env : Environment) (t : Template) :
    ((env.render ctx t).run w).1 = ((env.render ctx' t).run w').1 ∧
      InStep id ctx.registers ctx'.registers C ((env.render ctx t).run w).2 ((env.render ctx' t).run w').2 := by
  have hstart : InStep id ctx.registers ctx'.registers C (renderStart ctx w) (renderStart ctx' w') := by
    refine ⟨?_, hw.depth, hw.serves, hw.serves'⟩
    exact (get_renderStart w).trans (hw.registers.trans (get_renderStart w').symm)
  obtain ⟨hans, hend⟩ := related_render coupled_inStep.toCongruent
    (related_renderNodes_of_matches hlimit hv env t) hstart
  exact ⟨hans.eq, hend⟩

/-- So does a precompilation. -/
theorem precompile_inStep (hlimit : ctx.includeLimit = ctx'.includeLimit) (hv : ∀ v, ctx.Matches ctx' v)
    (hw : InStep Registers.reset ctx.registers ctx'.registers C w w') (env : Environment) (t : Template) :
    ((env.precompile ctx t).run w).1 = ((env.precompile ctx' t).run w').1 ∧
      InStep id ctx.registers ctx'.registers C ((env.precompile ctx t).run w).2
        ((env.precompile ctx' t).run w').2 := by
  have hcaching : (w.registers.get ctx.registers).caching = (w'.registers.get ctx'.registers).caching := by
    show (w.registersAt ctx.registers).reset.caching = (w'.registersAt ctx'.registers).reset.caching
    rw [hw.registers]
  have hstart : InStep id ctx.registers ctx'.registers C (precompileStart ctx w) (precompileStart ctx' w') := by
    have hregs := congrArg (·.setCaching true) hw.registers
    refine ⟨?_, hw.depth, hw.serves, hw.serves'⟩
    exact (get_precompileStart w).trans (hregs.trans (get_precompileStart w').symm)
  obtain ⟨hans, hend⟩ := related_renderNodes_of_matches hlimit hv env t _ _ hstart
  rcases hr : (env.renderNodes ctx t).run (precompileStart ctx w) with ⟨r, w₁⟩
  rcases hr' : (env.renderNodes ctx' t).run (precompileStart ctx' w') with ⟨r', w₁'⟩
  rw [hr, hr'] at hans hend
  have hnames : Registers.NamesOnly (fun _ => True) (·.reset.setCaching (w.registers.get ctx.registers).caching) :=
    fun _ _ _ => Or.inl trivial
  have hended := coupled_inStep.modify hnames (coupled_inStep.report .precompileEnded hend)
  cases hans with
  | error f =>
    rw [precompile_run_of_error hr, precompile_run_of_error hr', ← hcaching]
    exact ⟨rfl, hended⟩
  | ok hsource =>
    subst hsource
    obtain ⟨event, hrun⟩ := precompile_run_of_ok hr
    obtain ⟨event', hrun'⟩ := precompile_run_of_ok hr'
    have hstore : (w₁.registers.get ctx.registers).store = (w₁'.registers.get ctx'.registers).store :=
      congrArg Registers.store hend.registers
    rw [hrun, hrun', ← hcaching, hstore]
    exact ⟨rfl, hended.registers, hended.depth, hended.serves, hended.serves'⟩

end Environment

namespace Request

/-- Where the next request finds the same, it is answered in the same way, and if it gets as far as to start, it ends
with the same registers. -/
theorem perform_inStep (hlimit : ctx.includeLimit = ctx'.includeLimit) (hv : ∀ v, ctx.Matches ctx' v)
    (hw : InStep Registers.reset ctx.registers ctx'.registers C w w') (q : Request) :
    ((q.perform ctx).run w).1 = ((q.perform ctx').run w').1 ∧
      (q.Starts → ((q.perform ctx).run w).2.registersAt ctx.registers =
        ((q.perform ctx').run w').2.registersAt ctx'.registers) := by
  cases q with
  | render env t =>
    obtain ⟨hans, hend⟩ := Environment.render_inStep hlimit hv hw env t
    rw [perform, perform, Run.map_run, Run.map_run, hans]
    exact ⟨rfl, fun _ => hend.registers⟩
  | precompile env t =>
    obtain ⟨hans, hend⟩ := Environment.precompile_inStep hlimit hv hw env t
    rw [perform, perform, Run.map_run, Run.map_run, hans]
    exact ⟨rfl, fun _ => hend.registers⟩
  | replay env p =>
    rw [perform, perform, Run.map_run, Run.map_run]
    rcases hparse : p.parse with e | t
    · rw [p.replay_run_of_error hparse, p.replay_run_of_error hparse]
      refine ⟨rfl, fun ⟨t, ht⟩ => ?_⟩
      rw [hparse] at ht
      cases ht
    · have hsource : InStep Registers.reset ctx.registers ctx'.registers p.artifacts.catalog
          { w with source := p.artifacts.toSource } { w' with source := p.artifacts.toSource } :=
        ⟨hw.registers, hw.depth, p.artifacts.serves_toSource, p.artifacts.serves_toSource⟩
      obtain ⟨hans, hend⟩ := Environment.render_inStep hlimit hv hsource env t
      rw [p.replay_run hparse, p.replay_run hparse, hans]
      exact ⟨rfl, fun _ => hend.registers⟩
  | setCaching caching => exact ⟨rfl, False.elim⟩

end Request

/-! ## New contexts -/

/-- `ctx'` is a new context in the state `w'`, made like `ctx`: its outputs show the same as those of `ctx` and mark
alike, its source answers alike, and its options are those that `ctx` has in the state `w`. -/
structure Renews (ctx : Context ω) (C : Catalog) (w : World σ) (ctx' : Context ω') (w' : World σ') : Prop where
  assigns : ∀ v, ctx.Matches ctx' v
  serves : w'.source.Serves C
  depth : w'.includeDepth = w.includeDepth
  limit : ctx'.includeLimit = ctx.includeLimit
  registers : w'.registersAt ctx'.registers = .ofOptions
    { caching := (w.registersAt ctx.registers).caching
      policy := (w.registersAt ctx.registers).policy
      maxIncludeDepth := ctx.includeLimit }

/-- A new context cannot be told from the one that it was made like by what starts from fresh registers. -/
theorem Renews.inStep (hr : Renews ctx C w ctx' w') (hs : w.source.Serves C) :
    InStep Registers.reset ctx.registers ctx'.registers C w w' := by
  refine ⟨?_, hr.depth.symm, hs, hr.serves⟩
  rw [hr.registers]
  rfl

end

/-! ## Histories -/

section

variable {ω σ : Type} [DataModel ω σ] {ctx : Context ω} {C : Catalog}

/-- After any history a request leaves the source, the depth, the policy and the mode as they should be, and no
inclusion in progress. It is answered as in a context that is new, and if it gets as far as to start, then the registers
that it leaves, with the artifacts in them, are the same as there. -/
theorem Request.history_independent (hp : ctx.Pure) {w : World σ} (hs : w.source.Serves C) (past : List Request)
    (q : Request) :
    let before := performAll ctx past w
    let after := (q.perform ctx).run before
    q.Leaves ctx.registers before after.2 ∧
      ((w.registersAt ctx.registers).depth = 0 → (after.2.registersAt ctx.registers).depth = 0) ∧
      ∀ {ω' σ' : Type} [DataModel ω' σ'] {ctx' : Context ω'} {w' : World σ'}, Renews ctx C before ctx' w' →
        ((q.perform ctx').run w').1 = after.1 ∧
          (q.Starts → ((q.perform ctx').run w').2.registersAt ctx'.registers =
            after.2.registersAt ctx.registers) := by
  intro before after
  have hc := hp.confined Registers.bracketed_inMode.toBound
  have hpast : Outside Registers.Lasting ctx.registers w before := lasting_performAll hc past w
  have hleaves : q.Leaves ctx.registers before after.2 := leaves_perform hc q before
  refine ⟨hleaves, fun h => hleaves.registers.depth (hpast.registers.depth h), ?_⟩
  intro ω' σ' _ ctx' w' hnew
  obtain ⟨hans, hregs⟩ := perform_inStep hnew.limit.symm hnew.assigns
    (hnew.inStep (hs.congr hpast.answer)) q
  exact ⟨hans.symm, fun h => (hregs h).symm⟩

end

namespace Sample

/-- A page that includes what is not there. -/
def lostPage : Template :=
  ⟨[.inclusion ⟨" ", '\'', "gone"⟩]⟩

/-- A precompilation, a render that fails, a change of the mode and a replay. -/
def history : List Request :=
  [.precompile .cached page, .render .native lostPage, .setCaching true, .replay .cached (precompiled "Ann")]

/-- The site before any render, in caching mode. -/
def newWorld : World Heap :=
  { world with registers := ⟨[.ofOptions { caching := true, maxIncludeDepth := 8 }]⟩ }

theorem renews_history :
    Renews (context "Ann") catalog (Request.performAll (context "Ann") history world) (context "Ann") newWorld where
  assigns v := Context.matches_of_lookup_eq (pure_context "Ann").1 rfl rfl
  serves := serves_world
  depth := by cbv
  limit := rfl
  registers := by cbv

/-- After the history the page is rendered as it is on the new site. -/
theorem history_independent_page :
    let request : Request := .render .cached page
    let after := (request.perform (context "Ann")).run (Request.performAll (context "Ann") history world)
    ((request.perform (context "Ann")).run newWorld).1 = after.1 ∧
      after.1 = .ok (.text "Home: \x7b% include 'row' %\x7d!") ∧
      (after.2.registersAt (context "Ann").registers).depth = 0 ∧
      (after.2.registersAt (context "Ann").registers).store = some (precompiled "Ann").artifacts := by
  intro request after
  obtain ⟨-, hdepth, hnew⟩ :=
    Request.history_independent (w := world) (pure_context "Ann").1 serves_world history request
  obtain ⟨hans, hregs⟩ := hnew renews_history
  refine ⟨hans, hans.symm.trans (by cbv), hdepth rfl, ?_⟩
  rw [← hregs trivial]
  cbv

end Sample

end HybridTemplate
