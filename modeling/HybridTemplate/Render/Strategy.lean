import HybridTemplate.Render.Context
import HybridTemplate.Render.Track

/-!
# Strategies of inclusion

An inclusion is rendered through layers around the native strategy, which reads the included template and renders it.

* `Reply` — what a layer of one's own does that knows no more than the tag: it asks the layers beneath it any number of
  times and then gives a text or an error, which may depend on what it was told;
* `cacheAware` — in caching mode this layer renders the inclusion inside a frame. If the frame is still cacheable
  afterwards, the text is frozen into the output. Otherwise the directive stays in the output, and the artifacts keep
  the source of the template and of those inlined beneath it, and the text;
* `runLayers` — an inclusion through a list of layers, outermost first.
-/

namespace HybridTemplate

/-- What a layer does about an inclusion. -/
inductive Reply where
  /-- Gives a text or an error. -/
  | give (result : Except RenderError String)
  /-- Asks the layers beneath for the text and goes on with what they answer. -/
  | ask (next : Except RenderError String → Reply)

/-- A layer around the strategies beneath it. -/
inductive Layer where
  /-- The layer that freezes cacheable inclusions and defers the others. -/
  | cacheAware
  /-- A layer of one's own. -/
  | custom (reply : Inclusion → Reply)

namespace Reply

variable {σ : Type}

/-- Follows a reply, with `inner` as the layers beneath. -/
def follow (inner : RenderRun σ String) : Reply → RenderRun σ String
  | give (.ok text) => pure text
  | give (.error e) => .raise e
  | ask next => do follow inner (next (← inner.catchError))

end Reply

namespace World

variable {ω σ : Type}

/-- The source of a template; a render fails without it. -/
def readTemplate (name : String) : RenderRun σ String := do
  match ← readSource name with
  | .ok text => return text
  | .error e => .raise (.source e)

/-- The sources of templates, with their names. -/
def readTemplates : List String → RenderRun σ (List (String × String))
  | [] => pure []
  | name :: names => do
    let text ← readTemplate name
    return (name, text) :: (← readTemplates names)

end World

open World

variable {ω σ : Type}

/-- The artifacts with what a deferred inclusion needs later: the sources of the templates inlined beneath it, its own
source and its text. -/
def Artifacts.defer (a : Artifacts) (name source text : String) (inlined : List (String × String)) : Artifacts :=
  ((inlined.foldl (fun a e => a.insertTemplate e.1 e.2) a).insertTemplate name source).insertResult name text

/-- What follows the frame around an inclusion: if it stayed cacheable the text is frozen, otherwise the inclusion is
deferred. -/
def settleInclusion (ctx : Context ω) (tag : Inclusion) (text : String) (frame : Frame) : RenderRun σ String := do
  if frame.cacheable then
    report (.frozen tag.key)
    modifyRegisters ctx.registers (·.mapStack (·.recordInlined frame))
    return text
  else
    let source ← readTemplate tag.key
    let inlined ← readTemplates frame.inlined.toList
    let r ← registersOf ctx.registers
    report (.deferred tag.key r.depth inlined.length r.policy)
    modifyRegisters ctx.registers (·.mapStore (·.defer tag.key source text inlined))
    return tag.directive

/-- Freezes an inclusion that stayed cacheable and defers any other one; outside caching mode it does nothing. -/
def cacheAware (ctx : Context ω) (tag : Inclusion) (inner : RenderRun σ String) : RenderRun σ String := do
  if (← registersOf ctx.registers).caching then
    let (text, frame) ← track ctx.registers tag.key inner
    settleInclusion ctx tag text frame
  else inner

/-- An inclusion through layers, outermost first, around the native strategy. -/
def runLayers (ctx : Context ω) (tag : Inclusion) (native : RenderRun σ String) : List Layer → RenderRun σ String
  | [] => native
  | .cacheAware :: layers => cacheAware ctx tag (runLayers ctx tag native layers)
  | .custom reply :: layers => (reply tag).follow (runLayers ctx tag native layers)

end HybridTemplate
