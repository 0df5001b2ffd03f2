import HybridTemplate.Render.Environment

/-!
# Strategies that have the context

A layer of one's own (`Layer.custom`) knows the tag and what the layers beneath answer to it. In general a strategy of
inclusion is handed the environment and the context as well. It may look at all of the state and change it, the
variables in scope and the mode included, access values, ask the layers beneath about any tag, and call an environment
again, be it the one that it was called from or another one.

* `Scene` — the state of a render together with its context;
* `Plan` — what a strategy does about an inclusion, step by step;
* `Strategy`, `Environments` — the strategies of an environment, outermost first, and all environments that strategies
  know of, by names;
* `Environments.expand`, `Environments.render` — an inclusion and a render through them. A native inclusion goes one
  level deeper and so comes to an end, but strategies may call environments without end. So the number of calls that may
  be inside one another is a parameter. A render that gives a text or an error gives it with any greater number as well
  (`Environments.render_of_le`), and for layers the limit of the context is enough (`Environment.render_alone`).
-/

namespace HybridTemplate

open Registers (Handle)
open World

/-- The state of a render with its context. The state `σ` of the data objects has that of strategies as well. -/
structure Scene (ω σ : Type) extends World σ where
  /-- What templates are rendered in at this point. -/
  context : Context ω

/-- A run over the state of a render with its context. -/
abbrev SceneRun (ω σ α : Type) := Run (Scene ω σ) RenderError α

/-- What a strategy does about an inclusion, among environments with names in `ι`. Its answers may depend on all that it
has seen before; an abort ends it. -/
inductive Plan (ι ω σ : Type) where
  /-- Gives a text or an error. -/
  | give (result : Except RenderError String)
  /-- Gives up without an error. -/
  | abort (a : Abort)
  /-- Looks at the state. -/
  | look (next : Scene ω σ → Plan ι ω σ)
  /-- Changes the state. -/
  | modify (g : Scene ω σ → Scene ω σ) (next : Plan ι ω σ)
  /-- Prepares an object for the render that there is. -/
  | expose (o : DataObject ω) (next : DataObject ω → Plan ι ω σ)
  /-- Takes one step of a path. -/
  | get (key : String) (v : Value ω) (next : Except RenderError (Value ω) → Plan ι ω σ)
  /-- Asks for the text of a value. -/
  | render (v : Value ω) (next : Except RenderError String → Plan ι ω σ)
  /-- Asks the layers beneath about a tag, which call this environment for the inclusions in its template. -/
  | ask (env : ι) (tag : Inclusion) (next : Except RenderError String → Plan ι ω σ)
  /-- Calls an environment. -/
  | call (env : ι) (tag : Inclusion) (next : Except RenderError String → Plan ι ω σ)

/-- A layer around the strategies beneath it. -/
inductive Strategy (ι ω σ : Type) where
  /-- The layer that freezes cacheable inclusions and defers the others. -/
  | cacheAware
  /-- A layer with plans of its own, given the environment that it is called from. -/
  | planned (plan : ι → Inclusion → Plan ι ω σ)

/-- Environments by names: the strategies of each around the native one, outermost first. -/
structure Environments (ι ω σ : Type) where
  chain : ι → List (Strategy ι ω σ)

/-! ## In a scene -/

namespace Scene

variable {ω σ α : Type}

/-- A run over the state of a render, in the context that there is. -/
def within (x : Context ω → RenderRun σ α) : SceneRun ω σ α :=
  fun s => let (r, w) := (x s.context).run s.toWorld; (r, { s with toWorld := w })

/-- A run that needs only the state that is shared with objects. -/
def shared (x : ObjectRun σ α) : SceneRun ω σ α :=
  within fun _ => lift x

/-- An object that is prepared for the render. -/
def exposed [Exposable ω σ] (o : DataObject ω) : SceneRun ω σ (DataObject ω) :=
  within fun ctx => lift fun w => let (o, w) := (o.expose ctx.registers).run w; (.ok o, w)

/-- Runs `body` inside a frame of the registers, as `World.track` does. -/
def track (h : Handle) (name : String) (body : SceneRun ω σ α) : SceneRun ω σ (α × Frame) := do
  within fun _ => modifyRegisters h (·.mapStack (·.push name))
  let result ← body.attempt
  let frame ← within fun _ => popFrame h
  return (← .ofExcept result, frame)

/-- Runs `body` one inclusion deeper, as `World.nested` does, with the limit of the context that there is. -/
def nested (body : SceneRun ω σ α) : SceneRun ω σ α := do
  let s ← .look id
  if s.context.includeLimit ≤ s.includeDepth then .raise (.nestingTooDeep s.includeDepth)
  else
    Run.modify fun s => { s with includeDepth := s.includeDepth + 1 }
    let result ← body.attempt
    Run.modify fun s => { s with includeDepth := s.includeDepth - 1 }
    .ofExcept result

/-- Freezes or defers an inclusion in the registers that are there when it begins. -/
def cacheAware (tag : Inclusion) (inner : SceneRun ω σ String) : SceneRun ω σ String := do
  let ctx ← .look Scene.context
  if (← within fun _ => registersOf ctx.registers).caching then
    let (text, frame) ← track ctx.registers tag.key inner
    within fun _ => settleInclusion ctx tag text frame
  else inner

variable [DataModel ω σ]

/-- Renders a node, with `expand` for the inclusions. -/
def renderNode (expand : Inclusion → SceneRun ω σ String) : Node → SceneRun ω σ String
  | .text content => pure content
  | .output v => within fun ctx => lift (ctx.evaluate v)
  | .inclusion tag => expand tag

/-- Renders nodes one after the other, with `expand` for the inclusions. -/
def renderNodes (expand : Inclusion → SceneRun ω σ String) : List Node → SceneRun ω σ String
  | [] => pure ""
  | node :: nodes => do
    let text ← renderNode expand node
    return text ++ (← renderNodes expand nodes)

/-- Reads and renders a template in place of the tag, with `expand` for the inclusions in it. -/
def renderTemplate (expand : Inclusion → SceneRun ω σ String) (name : String) : SceneRun ω σ String := do
  match Template.parse (← within fun _ => readTemplate name) with
  | .ok t => renderNodes expand t.nodes
  | .error e => .raise (.parse e)

end Scene

/-! ## Through strategies -/

section

variable {ι ω σ : Type} [DataModel ω σ]

/-- Follows a plan, with `beneath` for the layers beneath and `anew` for calls of environments. -/
def Plan.follow (beneath anew : ι → Inclusion → SceneRun ω σ String) : Plan ι ω σ → SceneRun ω σ String
  | give (.ok text) => pure text
  | give (.error e) => .raise e
  | abort a => .abort a
  | look next => do follow beneath anew (next (← .look id))
  | modify g next => do
    Run.modify g
    follow beneath anew next
  | expose o next => do follow beneath anew (next (← Scene.exposed o))
  | get key v next => do follow beneath anew (next (← (Scene.shared (v.get key)).catchError))
  | render v next => do follow beneath anew (next (← (Scene.shared v.render).catchError))
  | ask env tag next => do follow beneath anew (next (← (beneath env tag).catchError))
  | call env tag next => do follow beneath anew (next (← (anew env tag).catchError))

namespace Environments

/-- An inclusion through strategies, outermost first, around the native one, with `anew` for calls of environments. -/
def through (anew : ι → Inclusion → SceneRun ω σ String) :
    List (Strategy ι ω σ) → ι → Inclusion → SceneRun ω σ String
  | [], env, tag => Scene.nested (Scene.renderTemplate (anew env) tag.key)
  | .cacheAware :: chain, env, tag => Scene.cacheAware tag (through anew chain env tag)
  | .planned plan :: chain, env, tag => (plan env tag).follow (through anew chain) anew

/-- Calls an environment for an inclusion. A call inside as many others as `nesting` is an abort, as where there is no
room left on the stack of calls. -/
def expand (E : Environments ι ω σ) : Nat → ι → Inclusion → SceneRun ω σ String
  | 0, _, _ => .abort (.raised "too many calls of environments inside one another")
  | nesting + 1, env, tag => through (E.expand nesting) (E.chain env) env tag

/-- Renders a template from fresh registers. -/
def render (E : Environments ι ω σ) (nesting : Nat) (env : ι) (t : Template) : SceneRun ω σ String := do
  Scene.within fun ctx => modifyRegisters ctx.registers Registers.reset
  Scene.within fun ctx => do report (.renderStarted (← registersOf ctx.registers).caching)
  let result ← (Scene.renderNodes (E.expand nesting env) t.nodes).attempt
  Scene.within fun _ => report .renderEnded
  .ofExcept result

end Environments

end

/-! ## Layers as strategies -/

section

variable {ι ω σ : Type}

/-- A reply as a plan, which asks about the tag and leaves the state alone. -/
def Reply.plan (env : ι) (tag : Inclusion) : Reply → Plan ι ω σ
  | give result => .give result
  | ask next => .ask env tag fun answer => (next answer).plan env tag

/-- A layer as a strategy. -/
def Layer.strategy : Layer → Strategy ι ω σ
  | cacheAware => .cacheAware
  | custom reply => .planned fun env tag => (reply tag).plan env tag

/-- An environment of layers, which know of no other. -/
def Environment.alone (env : Environment) : Environments Unit ω σ :=
  ⟨fun _ => env.layers.map Layer.strategy⟩

end

end HybridTemplate
