import HybridTemplate.Object.Basic
import HybridTemplate.Template.Node

/-!
# Contexts

A `Context` is what a template is rendered in: the variables in scope, the registers of the render, and the limit on the
depth of inclusions. `Context.assignObject` prepares an object for the render before it goes into scope, and
`Context.evaluate` is the text of a variable in the output.
-/

namespace HybridTemplate

open Registers (Handle)

/-- What a template is rendered in. -/
structure Context (ω : Type) where
  /-- The variables in scope. -/
  assigns : NameMap (Value ω) := ∅
  /-- The registers of the render. -/
  registers : Handle
  /-- The greatest number of inclusions inside one another. -/
  includeLimit : Nat

namespace Context

variable {ω σ : Type}

/-- A context with nothing in scope and with registers of its own. -/
def ofOptions (o : RenderOptions) (b : Bank) : Context ω × Bank :=
  let (registers, b) := b.add (.ofOptions o)
  ({ registers, includeLimit := o.maxIncludeDepth }, b)

/-- Puts a value into scope. -/
def assign (ctx : Context ω) (name : String) (v : Value ω) : Context ω :=
  { ctx with assigns := ctx.assigns.insert name v }

/-- The value of a variable; an unknown one is null. -/
def lookup (ctx : Context ω) (name : String) : Value ω :=
  (ctx.assigns.get? name).getD .null

/-- Prepares an object for the render and puts it into scope. -/
def assignObject [Exposable ω σ] (ctx : Context ω) (name : String) (o : DataObject ω) :
    StateM (Shared σ) (Context ω) := do
  return ctx.assign name (.object (← o.expose ctx.registers))

/-- The text of a variable in the output. -/
def evaluate [DataModel ω σ] (ctx : Context ω) (v : Variable) : ObjectRun σ String := do
  (← (ctx.lookup v.name).getAll v.members).render

end Context

end HybridTemplate
