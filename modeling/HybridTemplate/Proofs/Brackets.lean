import HybridTemplate.Proofs.Framing
import HybridTemplate.Proofs.Verdicts

/-!
# Brackets that end in any way

What goes on inside of a bracket may open further brackets, mark the inclusions in progress and record what was
inlined, and each bracket may end with an answer, an error or an abort, which whatever is around it may catch or pass
on. In all of these cases a bracket takes its own frame from the stack again, and no other.

* `Body` — what can go on inside of a bracket, with a continuation that sees how an inner bracket has ended;
* `Body.ops` — the operations on the stack that a body does when it runs, which are matched (`Body.run_registers`);
* `World.track_run_of_matched` — a bracket around matched operations;
* `World.track_balanced` — a bracket around a body gives the frame that says what the body did, ends as the body does,
  and leaves the frames that were there, with just the flags lowered that a mark in the body has reached.
-/

namespace HybridTemplate

open Registers (Handle)
open FrameStack (Op Verdict beneath)
open FrameStack.Op (Matched)

/-- What goes on inside of a bracket, in terms of the registers: it can mark, record, open a bracket of its own, and
come to an end of any kind. -/
inductive Body : Type → Type → Type 1 where
  | finish {ε α : Type} (result : Except (Failure ε) α) : Body ε α
  | mark {ε α : Type} (next : Body ε α) : Body ε α
  | record {ε α : Type} (child : Frame) (next : Body ε α) : Body ε α
  /-- A bracket, and what goes on after it: this may depend on the answer and on the frame, and may catch an error or
  an abort as well as pass it on. -/
  | track {ε α ε' β : Type} (name : String) (body : Body ε' β)
      (next : Except (Failure ε') (β × Frame) → Body ε α) : Body ε α

namespace Body

variable {σ : Type}

/-- Runs a body on the registers of a handle. -/
def run (h : Handle) {ε α : Type} : Body ε α → Run (World σ) ε α
  | finish result => .ofExcept result
  | mark next => do
    World.modifyRegisters h Registers.markUncacheable
    next.run h
  | record child next => do
    World.modifyRegisters h (·.mapStack (·.recordInlined child))
    next.run h
  | track name body next => do
    let result ← (World.track h name (body.run h)).attempt
    (next result).run h

/-- The operations on the stack that a body does when it runs from this state. -/
def ops (h : Handle) {ε α : Type} : Body ε α → World σ → List Op
  | finish _, _ => []
  | mark next, w =>
    .mark :: next.ops h { w with toShared := w.toShared.modifyRegisters h Registers.markUncacheable }
  | record child next, w =>
    .record child ::
      next.ops h { w with toShared := w.toShared.modifyRegisters h (·.mapStack (·.recordInlined child)) }
  | track name body next, w =>
    let (result, w') := (World.track h name (body.run h)).run w
    (.push name :: body.ops h (w.entered h name) ++ [.pop]) ++ (next result).ops h w'

end Body

/-! ## One bracket -/

/-- Around anything that does matched operations on the stack, a bracket pops the frame that it pushed. -/
theorem World.track_run_of_matched {σ ε α : Type} {h : Handle} {name : String} {x : Run (World σ) ε α} {w : World σ}
    {ops : List Op} (hops : Matched ops)
    (hx : (x.run (w.entered h name)).2.registers.get h =
      ((w.entered h name).registers.get h).mapStack (·.after ops)) :
    ∃ frame, Verdict (w.registers.get h).policy name ops frame ∧
      ((track h name x).run w).1 = (x.run (w.entered h name)).1.map (·, frame) ∧
      ((track h name x).run w).2.registers.get h =
        (w.registers.get h).mapStack fun s => { s with frames := beneath s.policy ops s.frames } := by
  obtain ⟨frame, hverdict, hpop⟩ := (w.registers.get h).stack.exists_pop?_of_matched name hops
  rcases hr : x.run (w.entered h name) with ⟨r, w₁⟩
  rw [hr, entered, Shared.get_modifyRegisters_self] at hx
  have hpop₁ : (w₁.registers.get h).stack.pop? = some (frame, { (w.registers.get h).stack with
      frames := beneath (w.registers.get h).stack.policy ops (w.registers.get h).stack.frames }) := by
    rw [hx]
    exact hpop
  rw [track_run_of_pop? hr hpop₁]
  refine ⟨frame, hverdict, rfl, ?_⟩
  rw [Shared.get_modifyRegisters_self, hx]
  rfl

/-! ## Bodies -/

namespace Body

variable {σ ε α : Type} {h : Handle}

/-- What comes after a change to the registers that is an operation on the stack, but neither a push nor a pop. -/
theorem registers_of_step {next : Body ε α} {op : Op} {g : Registers → Registers} {w : World σ}
    (hg : ∀ r, g r = r.mapStack (·.step op)) (hop : op.rise = 0)
    (hnext : ∀ w : World σ, Matched (next.ops h w) ∧
      ((next.run h).run w).2.registers.get h = (w.registers.get h).mapStack (·.after (next.ops h w))) :
    Matched (op :: next.ops h { w with toShared := w.toShared.modifyRegisters h g }) ∧
      ((World.modifyRegisters h g >>= fun _ => next.run h).run w).2.registers.get h =
        (w.registers.get h).mapStack
          (·.after (op :: next.ops h { w with toShared := w.toShared.modifyRegisters h g })) := by
  obtain ⟨hmatched, hregisters⟩ := hnext { w with toShared := w.toShared.modifyRegisters h g }
  refine ⟨(FrameStack.Op.matched_singleton hop).append hmatched, ?_⟩
  rw [Run.bind_run_of_ok (World.modifyRegisters_run _ _ _), hregisters, Shared.get_modifyRegisters_self, hg]
  rfl

/-- A body does on the stack just what its operations say, and these are matched, however it ends. -/
theorem run_registers (body : Body ε α) (w : World σ) :
    Matched (body.ops h w) ∧
      ((body.run h).run w).2.registers.get h = (w.registers.get h).mapStack (·.after (body.ops h w)) := by
  induction body generalizing w with
  | finish result =>
    rw [run, Run.ofExcept_run]
    exact ⟨FrameStack.Op.matched_nil, rfl⟩
  | mark next ih => exact registers_of_step (fun _ => rfl) rfl ih
  | record child next ih => exact registers_of_step (fun _ => rfl) rfl ih
  | track name body next ihbody ihnext =>
    obtain ⟨hinner, hentered⟩ := ihbody (w.entered h name)
    obtain ⟨frame, -, -, hbracket⟩ := World.track_run_of_matched hinner hentered
    rw [ops, run, Run.bind_run_of_ok (Run.attempt_run _ _)]
    rcases hrun : (World.track h name (body.run h)).run w with ⟨result, w'⟩
    rw [hrun] at hbracket
    obtain ⟨hlater, hregisters⟩ := ihnext result w'
    refine ⟨hinner.bracket.append hlater, ?_⟩
    rw [hregisters, hbracket]
    simp only [Registers.mapStack, FrameStack.after_append, FrameStack.after_bracket _ name hinner]

end Body

/-- However a body ends, a bracket around it ends likewise: an answer comes with the frame of this name that says what
was marked and recorded in the body, an error or an abort is passed on as it is. The registers are as before, except
that a mark in the body has lowered the flags of all frames where the policy is to spread marks. -/
theorem World.track_balanced {σ ε α : Type} (h : Handle) (name : String) (body : Body ε α) (w : World σ) :
    ∃ frame, Verdict (w.registers.get h).policy name (body.ops h (w.entered h name)) frame ∧
      ((track h name (body.run h)).run w).1 = ((body.run h).run (w.entered h name)).1.map (·, frame) ∧
      ((track h name (body.run h)).run w).2.registers.get h = (w.registers.get h).mapStack fun s =>
        { s with
          frames :=
            if s.policy = .propagating ∧ .mark ∈ body.ops h (w.entered h name) then s.frames.map Frame.mark
            else s.frames } := by
  obtain ⟨hmatched, hregisters⟩ := body.run_registers (h := h) (w.entered h name)
  exact track_run_of_matched hmatched hregisters

/-- An abort is caught, and another bracket comes after it. -/
example {σ : Type} (h : Handle) (w : World σ) :
    let aborted : Body Unit Unit := .mark (.finish (.error (.abort (.raised "no row"))))
    let done : Body Unit Unit := .finish (.ok ())
    (Body.track "row" aborted fun _ => .track "foot" done fun _ => done).ops h w =
      [.push "row", .mark, .pop, .push "foot", .pop] := rfl

end HybridTemplate
