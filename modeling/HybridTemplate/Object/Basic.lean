import HybridTemplate.Json.Lookup
import HybridTemplate.Render.World

/-!
# Data objects

A template reaches data that is computed during the render through opaque objects. `DataModel ω σ` says how objects `ω`
behave over a state `σ` of their own. A `DataObject` is such an object in any number of layers that intercept accesses:
each layer that knows registers marks the inclusions in progress as uncacheable before it passes an access on.

* `DataObject.invoke` and `DataObject.toOutput` are accesses; `DataObject.setRegisters` and `DataObject.toRenderable`
  prepare an object for a render and mark nothing;
* `Value` — a JSON value or a data object; `Value.get` takes one step of a path and `Value.render` is the text of a
  value in the output.
-/

namespace HybridTemplate

open Registers (Handle)

/-- An object in layers that intercept the accesses to it. -/
inductive DataObject (ω : Type) where
  | bare (object : ω)
  /-- A layer that marks the inclusions of the registers it knows, if it knows any. -/
  | uncacheable (source : DataObject ω) (registers : Option Handle)
deriving DecidableEq

/-- A value in the scope of a template. -/
inductive Value (ω : Type) where
  | json (value : Json)
  | object (object : DataObject ω)

/-- How the objects `ω` are prepared for a render, over a state `σ` of their own. -/
class Exposable (ω : Type) (σ : outParam Type) where
  /-- The object after it was told the registers of the render. -/
  setRegisters : ω → Handle → StateM (Shared σ) ω
  /-- The object in the form that templates see. -/
  toRenderable : ω → StateM (Shared σ) (DataObject ω)

/-- How the objects `ω` answer accesses, over a state `σ` of their own. -/
class DataModel (ω : Type) (σ : outParam Type) extends Exposable ω σ where
  /-- The value of a member. -/
  invoke : ω → String → ObjectRun σ (Value ω)
  /-- The text of the object itself in the output. -/
  toOutput : ω → ObjectRun σ String

namespace DataObject

variable {ω σ : Type}

/-- An object behind a new layer that knows no registers yet. -/
def intercepted (o : DataObject ω) : DataObject ω :=
  uncacheable o none

/-- An object behind `n` new layers. -/
def wrap : Nat → DataObject ω → DataObject ω
  | 0, o => o
  | n + 1, o => (wrap n o).intercepted

/-- Reports an access and marks the inclusions in progress, if registers are known. -/
def taint (registers : Option Handle) (member : String) : ObjectRun σ Unit :=
  match registers with
  | none => pure ()
  | some h => do
    let r ← Run.look fun w => w.registers.get h
    Run.modify fun w => w.report (.accessed member r.depth)
    Run.modify fun w => w.modifyRegisters h Registers.markUncacheable

/-- Passes an access on through all layers. -/
def access {α : Type} (member : String) (act : ω → ObjectRun σ α) : DataObject ω → ObjectRun σ α
  | bare o => act o
  | uncacheable o registers => do
    taint registers member
    access member act o

section

variable [Exposable ω σ]

/-- Tells all layers and the object the registers of the render. -/
def setRegisters (h : Handle) : DataObject ω → StateM (Shared σ) (DataObject ω)
  | bare o => return bare (← Exposable.setRegisters o h)
  | uncacheable o _ => return uncacheable (← setRegisters h o) (some h)

/-- Converts the object; its layers survive the conversion. -/
def toRenderable : DataObject ω → StateM (Shared σ) (DataObject ω)
  | bare o => Exposable.toRenderable o
  | uncacheable o registers => return uncacheable (← toRenderable o) registers

/-- Prepares an object for a render: it is converted and then told the registers. -/
def expose (o : DataObject ω) (h : Handle) : StateM (Shared σ) (DataObject ω) := do
  setRegisters h (← o.toRenderable)

end

section

variable [DataModel ω σ]

/-- The value of a member. -/
def invoke (o : DataObject ω) (member : String) : ObjectRun σ (Value ω) :=
  o.access member fun o => DataModel.invoke o member

/-- The text of the object itself in the output. -/
def toOutput (o : DataObject ω) : ObjectRun σ String :=
  o.access "to_output" DataModel.toOutput

end

end DataObject

namespace Value

variable {ω σ : Type}

/-- The value of whatever is not there. -/
def null : Value ω := json .null

instance : Inhabited (Value ω) := ⟨null⟩

/-- Whether the value is a data object. -/
def isObject : Value ω → Bool
  | json _ => false
  | object _ => true

variable [DataModel ω σ]

/-- One step of a path. -/
def get (key : String) : Value ω → ObjectRun σ (Value ω)
  | json v => pure (json (v.member key))
  | object o => o.invoke key

/-- The steps of a path, one after the other. -/
def getAll : List String → Value ω → ObjectRun σ (Value ω)
  | [], v => pure v
  | key :: keys, v => do getAll keys (← v.get key)

/-- The text of the value in the output. -/
def render : Value ω → ObjectRun σ String
  | json v => pure v.render
  | object o => o.toOutput

end Value

end HybridTemplate
