import HybridTemplate.Proofs.Expansion
import HybridTemplate.Proofs.Runs

/-!
# The outline of a caching render

A render through the cache-aware layer answers with a text, in which one can no longer tell frozen text from the
directives of deferred inclusions. `Environment.outline` is the same render, step by step, which answers with the
`Expansion` instead.

* `expandWithin_cached`, `renderWith_cached` — the render is its outline, with the text that the expansion emits as the
  answer; this holds for all objects and in either mode;
* `precompile_eq_ok`, `exists_outline_of_precompile` — a precompilation that answers has rendered the nodes, and has an
  outline, whose text is the hybrid source.
-/

namespace HybridTemplate

open World

variable {ω σ : Type}

/-! ## The outline -/

/-- An inclusion as `cacheAware` renders it, and whether it was deferred. -/
def outlineInclusion (ctx : Context ω) (tag : Inclusion) (inner : RenderRun σ Expansion) :
    RenderRun σ (Bool × Expansion) := do
  if (← registersOf ctx.registers).caching then
    let (body, frame) ← track ctx.registers tag.key inner
    if frame.cacheable then
      report (.frozen tag.key)
      modifyRegisters ctx.registers (·.mapStack (·.recordInlined frame))
      return (false, body)
    else
      let source ← readTemplate tag.key
      let inlined ← readTemplates frame.inlined.toList
      let r ← registersOf ctx.registers
      report (.deferred tag.key r.depth inlined.length r.policy)
      modifyRegisters ctx.registers (·.mapStore (·.defer tag.key source body.emitted inlined))
      return (true, body)
  else
    return (false, ← inner)

namespace Environment

variable [DataModel ω σ]

/-- The nodes of a template, with `expand` for the inclusions. -/
def outlineWith (ctx : Context ω) (expand : Inclusion → RenderRun σ (Bool × Expansion)) :
    List Node → RenderRun σ Expansion
  | [] => pure .nil
  | .text content :: nodes => do
    return .text content (← outlineWith ctx expand nodes)
  | .output v :: nodes => do
    let value ← lift (ctx.evaluate v)
    return .output v value (← outlineWith ctx expand nodes)
  | .inclusion tag :: nodes => do
    let (deferred, body) ← expand tag
    return .inclusion tag deferred body (← outlineWith ctx expand nodes)

/-- The template of a name, with `expand` for the inclusions in it. -/
def outlineTemplate (ctx : Context ω) (expand : Inclusion → RenderRun σ (Bool × Expansion)) (name : String) :
    RenderRun σ Expansion := do
  match Template.parse (← readTemplate name) with
  | .ok t => outlineWith ctx expand t.nodes
  | .error e => .raise (.parse e)

/-- An inclusion where `levels` more inclusions are allowed inside one another. -/
def outlineWithin (ctx : Context ω) : Nat → Inclusion → RenderRun σ (Bool × Expansion)
  | 0, tag => outlineInclusion ctx tag (do .raise (.nestingTooDeep (← Run.look World.includeDepth)))
  | levels + 1, tag =>
    outlineInclusion ctx tag (nested id ctx.includeLimit (outlineTemplate ctx (outlineWithin ctx levels) tag.key))

/-- The outline of a precompilation. -/
def outline (ctx : Context ω) (t : Template) : RenderRun σ Expansion := do
  modifyRegisters ctx.registers (·.reset.setCaching true)
  report .precompileStarted
  outlineWith ctx (outlineWithin ctx (← levelsLeft ctx)) t.nodes

end Environment

/-! ## A render is its outline -/

/-- The text of an inclusion: a directive if it was deferred. -/
def emittedInclusion (tag : Inclusion) (r : Bool × Expansion) : String :=
  if r.1 then tag.directive else r.2.emitted

theorem Expansion.emitted_inclusion (tag : Inclusion) (d : Bool) (body rest : Expansion) :
    (Expansion.inclusion tag d body rest).emitted = emittedInclusion tag (d, body) ++ rest.emitted := by
  cases d <;> rfl

theorem cacheAware_map_emitted (ctx : Context ω) (tag : Inclusion) (inner : RenderRun σ Expansion) :
    cacheAware ctx tag (Expansion.emitted <$> inner) = emittedInclusion tag <$> outlineInclusion ctx tag inner := by
  have htrack : track ctx.registers tag.key (Expansion.emitted <$> inner) =
      (fun r => (r.1.emitted, r.2)) <$> track ctx.registers tag.key inner :=
    (map_track ctx.registers Expansion.emitted tag.key inner).symm
  simp only [cacheAware, settleInclusion, outlineInclusion, htrack, map_bind, bind_map_left]
  congr 1
  funext r
  split
  · simp only [map_bind]
    congr 1
    funext ⟨body, frame⟩
    split <;> simp [emittedInclusion]
  · simp [emittedInclusion]

namespace Environment

variable [DataModel ω σ] (ctx : Context ω)

theorem renderWith_map_emitted {expand : Inclusion → RenderRun σ String}
    {expand' : Inclusion → RenderRun σ (Bool × Expansion)}
    (h : ∀ tag, expand tag = emittedInclusion tag <$> expand' tag) (nodes : List Node) :
    renderWith ctx expand nodes = Expansion.emitted <$> outlineWith ctx expand' nodes := by
  induction nodes with
  | nil => rfl
  | cons node nodes ih =>
    cases node with
    | text content => simp [renderWith, renderNode, outlineWith, ih, Expansion.emitted]
    | output v => simp [renderWith, renderNode, outlineWith, ih, Expansion.emitted]
    | inclusion tag =>
      simp [renderWith, renderNode, outlineWith, ih, h, Expansion.emitted_inclusion]

theorem renderTemplate_map_emitted {expand : Inclusion → RenderRun σ String}
    {expand' : Inclusion → RenderRun σ (Bool × Expansion)}
    (h : ∀ tag, expand tag = emittedInclusion tag <$> expand' tag) (name : String) :
    renderTemplate ctx expand name = Expansion.emitted <$> outlineTemplate ctx expand' name := by
  simp only [renderTemplate, outlineTemplate, map_bind]
  congr 1
  funext source
  cases Template.parse source with
  | ok t => exact renderWith_map_emitted ctx h t.nodes
  | error e => rfl

theorem expandWithin_cached_zero (tag : Inclusion) :
    cached.expandWithin (σ := σ) ctx 0 tag =
      cacheAware ctx tag (do .raise (.nestingTooDeep (← Run.look World.includeDepth))) := by
  rw [expandWithin]
  rfl

theorem expandWithin_cached_succ (levels : Nat) (tag : Inclusion) :
    cached.expandWithin (σ := σ) ctx (levels + 1) tag =
      cacheAware ctx tag
        (nested id ctx.includeLimit (renderTemplate ctx (cached.expandWithin ctx levels) tag.key)) := by
  rw [expandWithin]
  rfl

/-- An inclusion is rendered as its outline says. -/
theorem expandWithin_cached (levels : Nat) (tag : Inclusion) :
    cached.expandWithin ctx levels tag = emittedInclusion tag <$> outlineWithin (σ := σ) ctx levels tag := by
  induction levels generalizing tag with
  | zero =>
    rw [expandWithin_cached_zero, outlineWithin, ← cacheAware_map_emitted]
    rfl
  | succ levels ih =>
    rw [expandWithin_cached_succ, outlineWithin, ← cacheAware_map_emitted, map_nested,
      ← renderTemplate_map_emitted ctx ih]

/-- Nodes are rendered as their outline says. -/
theorem renderWith_cached (levels : Nat) (nodes : List Node) :
    renderWith ctx (cached.expandWithin ctx levels) nodes =
      Expansion.emitted <$> outlineWith (σ := σ) ctx (outlineWithin ctx levels) nodes :=
  renderWith_map_emitted ctx (expandWithin_cached ctx levels) nodes

variable {ctx}

/-- The state in which a precompilation renders the nodes. -/
def precompileStart (ctx : Context ω) (w : World σ) : World σ :=
  { w with toShared := (w.toShared.modifyRegisters ctx.registers (·.reset.setCaching true)).report .precompileStarted }

omit [DataModel ω σ] in
theorem get_precompileStart (w : World σ) :
    (precompileStart ctx w).registers.get ctx.registers = (w.registers.get ctx.registers).reset.setCaching true :=
  Shared.get_modifyRegisters_self _ _ _

theorem outline_run (t : Template) (w : World σ) :
    (outline ctx t).run w =
      (outlineWith ctx (outlineWithin ctx (ctx.includeLimit - w.includeDepth)) t.nodes).run
        (precompileStart ctx w) := by
  rw [outline, Run.bind_run_of_ok (modifyRegisters_run _ _ _), Run.bind_run_of_ok (report_run _ _), levelsLeft,
    Run.bind_run_of_ok (Run.look_run _ _)]
  rfl

theorem renderNodes_run_precompileStart (t : Template) (w : World σ) :
    (cached.renderNodes ctx t).run (precompileStart ctx w) = (Expansion.emitted <$> outline ctx t).run w := by
  rw [renderNodes, levelsLeft, Run.bind_run_of_ok (Run.look_run _ _), renderWith_cached, Run.map_run, Run.map_run,
    outline_run]
  rfl

/-- The state of a precompilation after the nodes, with the mode that was before. -/
def precompileEnd (ctx : Context ω) (caching : Bool) (w : World σ) : World σ :=
  let w := { w with toShared := w.toShared.report .precompileEnded }
  { w with toShared := w.toShared.modifyRegisters ctx.registers (·.reset.setCaching caching) }

omit [DataModel ω σ] in
theorem get_precompileEnd (caching : Bool) (w : World σ) :
    (precompileEnd ctx caching w).registers.get ctx.registers =
      (w.registers.get ctx.registers).reset.setCaching caching :=
  Shared.get_modifyRegisters_self _ _ _

/-- What a precompilation does after the nodes, which ended with `r`. -/
theorem precompile_run {env : Environment} {t : Template} {w w' : World σ} {r : Except (Failure RenderError) String}
    (hr : (env.renderNodes ctx t).run (precompileStart ctx w) = (r, w')) :
    (env.precompile ctx t).run w =
      (do
        let source ← .ofExcept r
        let artifacts := (w'.registers.get ctx.registers).store.getD {}
        report (.precompiled artifacts.templates.size source.utf8ByteSize)
        return { source, artifacts } : RenderRun σ Precompiled).run
      (precompileEnd ctx (w.registers.get ctx.registers).caching w') := by
  have hattempt : ((env.renderNodes ctx t).attempt : RenderRun σ _).run (precompileStart ctx w) = (.ok r, w') := by
    rw [Run.attempt_run, hr]
  rw [precompile, Run.bind_run_of_ok (registersOf_run _ _), Run.bind_run_of_ok (modifyRegisters_run _ _ _),
    Run.bind_run_of_ok (report_run _ _)]
  refine (Run.bind_run_of_ok hattempt).trans ?_
  rw [Run.bind_run_of_ok (report_run _ _), Run.bind_run_of_ok (registersOf_run _ _),
    Run.bind_run_of_ok (modifyRegisters_run _ _ _)]
  rfl

/-- A precompilation fails as its nodes do, and cleans up all the same. -/
theorem precompile_run_of_error {env : Environment} {t : Template} {w w' : World σ} {f : Failure RenderError}
    (hr : (env.renderNodes ctx t).run (precompileStart ctx w) = (.error f, w')) :
    (env.precompile ctx t).run w = (.error f, precompileEnd ctx (w.registers.get ctx.registers).caching w') := by
  rw [precompile_run hr]
  rfl

/-- If its nodes answer, a precompilation answers with their text as the source and with the artifacts that they left in
the registers. -/
theorem precompile_run_of_ok {env : Environment} {t : Template} {w w' : World σ} {source : String}
    (hr : (env.renderNodes ctx t).run (precompileStart ctx w) = (.ok source, w')) :
    ∃ event, (env.precompile ctx t).run w =
      let ended := precompileEnd ctx (w.registers.get ctx.registers).caching w'
      (.ok { source, artifacts := (w'.registers.get ctx.registers).store.getD {} },
        { ended with toShared := ended.toShared.report event }) := by
  rw [precompile_run hr]
  exact ⟨_, rfl⟩

/-- A precompilation that answers has rendered the nodes: the source is their text, and the artifacts are those that
this left in the registers. -/
theorem precompile_eq_ok {env : Environment} {t : Template} {w : World σ} {p : Precompiled}
    (hp : ((env.precompile ctx t).run w).1 = .ok p) :
    ∃ w', (env.renderNodes ctx t).run (precompileStart ctx w) = (.ok p.source, w') ∧
      p.artifacts = (w'.registers.get ctx.registers).store.getD {} := by
  rcases hr : (env.renderNodes ctx t).run (precompileStart ctx w) with ⟨f | source, w'⟩
  · rw [precompile_run_of_error hr] at hp
    cases hp
  · obtain ⟨event, hrun⟩ := precompile_run_of_ok hr
    rw [hrun] at hp
    cases hp
    exact ⟨w', rfl, rfl⟩

/-- A precompilation that answers has an outline: the hybrid source is the text that it emits, and the artifacts are
those that it leaves in the registers. -/
theorem exists_outline_of_precompile {t : Template} {w : World σ} {p : Precompiled}
    (hp : ((cached.precompile ctx t).run w).1 = .ok p) :
    ∃ e w', (outline ctx t).run w = (.ok e, w') ∧ p.source = e.emitted ∧
      p.artifacts = (w'.registers.get ctx.registers).store.getD {} := by
  obtain ⟨w', hr, hartifacts⟩ := precompile_eq_ok hp
  rw [renderNodes_run_precompileStart, Run.map_run] at hr
  rcases ho : (outline ctx t).run w with ⟨r, w₁⟩
  rw [ho] at hr
  cases r with
  | error f => cases hr
  | ok e =>
    obtain ⟨hsource, rfl⟩ := Prod.mk.inj hr
    exact ⟨e, w₁, rfl, (Except.ok.inj hsource).symm, hartifacts⟩

end Environment

end HybridTemplate
