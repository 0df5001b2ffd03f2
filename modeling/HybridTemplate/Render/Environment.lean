import HybridTemplate.Artifacts.Precompiled
import HybridTemplate.Render.Strategy

/-!
# Rendering

An `Environment` is the list of layers that inclusions go through. A template is rendered node by node, and an included
template in the same way, one inclusion deeper. The number of inclusions that are still allowed inside one another
bounds the recursion.

* `Environment.expand` — renders one inclusion, and `Environment.renderNodes` the nodes of a template;
* `Environment.render` — a render of its own: it starts from fresh registers;
* `Environment.precompile` — a render in caching mode: it answers with the hybrid source, in which the deferred
  inclusions are left, and with their artifacts;
* `Precompiled.replay` — renders the hybrid source with the artifacts as the source of templates.
-/

namespace HybridTemplate

open World

/-- The strategy that inclusions are rendered with. -/
structure Environment where
  /-- The layers around the native strategy, outermost first. -/
  layers : List Layer

namespace Environment

/-- Inclusions are rendered in place. -/
def native : Environment := ⟨[]⟩

/-- Inclusions are rendered through the cache-aware layer. -/
def cached : Environment := ⟨[.cacheAware]⟩

section

variable {ω σ : Type} [DataModel ω σ]

/-- Renders a node, with `expand` for the inclusions. -/
def renderNode (ctx : Context ω) (expand : Inclusion → RenderRun σ String) : Node → RenderRun σ String
  | .text content => pure content
  | .output v => lift (ctx.evaluate v)
  | .inclusion tag => expand tag

/-- Renders nodes one after the other, with `expand` for the inclusions. -/
def renderWith (ctx : Context ω) (expand : Inclusion → RenderRun σ String) : List Node → RenderRun σ String
  | [] => pure ""
  | node :: nodes => do
    let text ← renderNode ctx expand node
    return text ++ (← renderWith ctx expand nodes)

/-- Reads and renders a template in place of the tag, with `expand` for the inclusions in it. -/
def renderTemplate (ctx : Context ω) (expand : Inclusion → RenderRun σ String) (name : String) :
    RenderRun σ String := do
  match Template.parse (← readTemplate name) with
  | .ok t => renderWith ctx expand t.nodes
  | .error e => .raise (.parse e)

/-- Renders an inclusion where `levels` more inclusions are allowed inside one another. The levels are the limit less
the depth, so none is left just where `nested` would fail as well (`World.nested_run_of_levels_zero`): the recursion and
the bracket make one and the same check. -/
def expandWithin (env : Environment) (ctx : Context ω) : Nat → Inclusion → RenderRun σ String
  | 0, tag => runLayers ctx tag (do .raise (.nestingTooDeep (← Run.look World.includeDepth))) env.layers
  | levels + 1, tag =>
    runLayers ctx tag (nested id ctx.includeLimit (renderTemplate ctx (env.expandWithin ctx levels) tag.key))
      env.layers

/-- The number of inclusions that are still allowed inside one another. -/
def levelsLeft (ctx : Context ω) : RenderRun σ Nat :=
  .look fun w => ctx.includeLimit - w.includeDepth

/-- Renders an inclusion. -/
def expand (env : Environment) (ctx : Context ω) (tag : Inclusion) : RenderRun σ String := do
  env.expandWithin ctx (← levelsLeft ctx) tag

/-- Renders the nodes of a template as a part of a render. -/
def renderNodes (env : Environment) (ctx : Context ω) (t : Template) : RenderRun σ String := do
  renderWith ctx (env.expandWithin ctx (← levelsLeft ctx)) t.nodes

/-- Renders a template from fresh registers. -/
def render (env : Environment) (ctx : Context ω) (t : Template) : RenderRun σ String := do
  modifyRegisters ctx.registers Registers.reset
  report (.renderStarted (← registersOf ctx.registers).caching)
  let result ← (env.renderNodes ctx t).attempt
  report .renderEnded
  .ofExcept result

/-- Renders a template in caching mode from fresh registers. Afterwards the mode is what it was, and neither inclusions
nor artifacts are left in the registers. The registers are put in order after an abort too, which unwinding would not
do; what they are after an abort is not to be relied on. -/
def precompile (env : Environment) (ctx : Context ω) (t : Template) : RenderRun σ Precompiled := do
  let before ← registersOf ctx.registers
  modifyRegisters ctx.registers (·.reset.setCaching true)
  report .precompileStarted
  let result ← (env.renderNodes ctx t).attempt
  report .precompileEnded
  let after ← registersOf ctx.registers
  modifyRegisters ctx.registers (·.reset.setCaching before.caching)
  let artifacts := after.store.getD {}
  let source ← .ofExcept result
  report (.precompiled artifacts.templates.size source.utf8ByteSize)
  return { source, artifacts }

end

end Environment

namespace Precompiled

variable {ω σ : Type} [DataModel ω σ]

/-- Renders the hybrid source with the artifacts as the source of templates, and puts the source back that was there.
It is put back after an abort too, which unwinding would not do. -/
def replay (p : Precompiled) (env : Environment) (ctx : Context ω) : RenderRun σ String := do
  match p.parse with
  | .error e => .raise (.parse e)
  | .ok t =>
    let before ← swapSource p.artifacts.toSource
    let result ← (env.render ctx t).attempt
    let _ ← swapSource before
    .ofExcept result

end Precompiled

end HybridTemplate
