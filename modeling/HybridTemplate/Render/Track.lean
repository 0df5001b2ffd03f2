import HybridTemplate.Render.World

/-!
# Brackets around inclusions

* `track` — runs a computation inside a frame of the stack: the frame is pushed before and popped after it, whichever
  way the computation ends;
* `nested` — runs a computation one inclusion deeper, unless the limit is reached.
-/

namespace HybridTemplate

open Registers (Handle)

namespace World

variable {σ ε α : Type}

/-- Ends the innermost inclusion; without one the run is aborted. -/
def popFrame (h : Handle) : Run (World σ) ε Frame :=
  fun w =>
    let r := w.registers.get h
    match r.stack.pop? with
    | some (f, stack) => (.ok f, { w with toShared := w.toShared.modifyRegisters h fun r => { r with stack } })
    | none => (.error (.abort .stackUnderflow), w)

/-- Runs `body` inside a frame named `name`, and answers with the frame as well. -/
def track (h : Handle) (name : String) (body : Run (World σ) ε α) : Run (World σ) ε (α × Frame) := do
  modifyRegisters h (·.mapStack (·.push name))
  let result ← body.attempt
  let frame ← popFrame h
  return (← .ofExcept result, frame)

/-- Runs `body` one inclusion deeper; at the limit it fails with the error that `report` makes of the depth. The depth
is put back after an abort as well. Unwinding would only pop the frames, so the depth after an abort is not to be relied
on. -/
def nested (report : RenderError → ε) (limit : Nat) (body : Run (World σ) ε α) : Run (World σ) ε α := do
  let depth ← Run.look World.includeDepth
  if limit ≤ depth then .raise (report (.nestingTooDeep depth))
  else
    Run.modify fun w => { w with includeDepth := w.includeDepth + 1 }
    let result ← body.attempt
    Run.modify fun w => { w with includeDepth := w.includeDepth - 1 }
    .ofExcept result

end World

end HybridTemplate
