import HybridTemplate.Registers.Bank
import HybridTemplate.Render.Error
import HybridTemplate.Run.Basic
import HybridTemplate.Trace.Event

/-!
# The state of a render

* `Shared σ` — what a render shares with data objects: the registers, the log of events, and the state `σ` that the
  objects have of their own;
* `World σ` — all of the state: in addition the source of templates and the depth of inclusions, which objects cannot
  reach (`lift_source`, `lift_includeDepth`).
-/

namespace HybridTemplate

open Registers (Handle)

/-- The state that a render shares with data objects. -/
structure Shared (σ : Type) where
  registers : Bank
  /-- The events so far, latest first. -/
  log : List Event
  /-- The state of the data objects. -/
  objects : σ

namespace Shared

variable {σ : Type}

/-- Changes the registers of a handle. -/
def modifyRegisters (w : Shared σ) (h : Handle) (g : Registers → Registers) : Shared σ :=
  { w with registers := w.registers.modify h g }

/-- Reports an event. -/
def report (w : Shared σ) (e : Event) : Shared σ :=
  { w with log := e :: w.log }

end Shared

/-- The state of a render. -/
structure World (σ : Type) extends Shared σ where
  /-- The provider of template sources. -/
  source : Source
  /-- The number of inclusions around the place that is being rendered. -/
  includeDepth : Nat

/-- A run over the state of a render. -/
abbrev RenderRun (σ α : Type) := Run (World σ) RenderError α

/-- A run over the state that a render shares with data objects. -/
abbrev ObjectRun (σ α : Type) := Run (Shared σ) RenderError α

namespace World

variable {σ ε α : Type}

/-- A run that needs only the shared state. -/
def lift (x : Run (Shared σ) ε α) : Run (World σ) ε α :=
  fun w => let (r, shared) := x.run w.toShared; (r, { w with toShared := shared })

/-- The registers of a handle. -/
def registersOf (h : Handle) : Run (World σ) ε Registers :=
  .look fun w => w.registers.get h

/-- Changes the registers of a handle. -/
def modifyRegisters (h : Handle) (g : Registers → Registers) : Run (World σ) ε Unit :=
  .modify fun w => { w with toShared := w.toShared.modifyRegisters h g }

/-- Reports an event. -/
def report (e : Event) : Run (World σ) ε Unit :=
  .modify fun w => { w with toShared := w.toShared.report e }

/-- Reads the source of a template. -/
def readSource (name : String) : Run (World σ) ε (Except SourceError String) :=
  fun w => let (answer, source) := w.source.read name; (.ok answer, { w with source })

/-- Puts another source in place and answers with the one that was there. -/
def swapSource (source : Source) : Run (World σ) ε Source :=
  fun w => (.ok w.source, { w with source })

theorem lift_source (x : Run (Shared σ) ε α) (w : World σ) : ((lift x).run w).2.source = w.source := rfl

theorem lift_includeDepth (x : Run (Shared σ) ε α) (w : World σ) :
    ((lift x).run w).2.includeDepth = w.includeDepth := rfl

end World

end HybridTemplate
