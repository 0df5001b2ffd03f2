import HybridTemplate.Proofs.Framing
import HybridTemplate.Proofs.Outline

/-!
# Flags only go down

As long as objects do not turn a flag back to cacheable or take frames away, a frame that was marked is uncacheable when
it is popped, however the run goes on and whether it fails or not.

* `FrameStack.Lowers` — the same frames, of which no more are cacheable than before; `FrameStack.Marked` — the frames
  that a mark selects are uncacheable, which is kept (`Marked.lowers`) and seen when the frame is popped
  (`Marked.pop?`);
* `bound_lowers` — objects that keep within `Registers.Lowers` may do anything else: they may have a state, leave or
  enter caching mode, record names and write artifacts;
* `bracketed_lowers` — a bracket puts back the frames that were there, so all parts of a render keep within the same
  bound.
-/

namespace HybridTemplate

open Registers (Handle)
open World

/-! ## Stacks -/

namespace FrameStack

/-- The stacks have as many frames under the same policy, and a frame that is cacheable in the second one is so in the
first. -/
structure Lowers (s s' : FrameStack) : Prop where
  policy : s'.policy = s.policy
  frames : List.Forall₂ (fun f f' : Frame => f'.cacheable = true → f.cacheable = true) s.frames s'.frames

/-- The frames that a mark selects. -/
def selected (s : FrameStack) : List Frame :=
  if s.policy.spreads then s.frames else s.frames.take 1

/-- The frames that a mark selects are uncacheable. -/
def Marked (s : FrameStack) : Prop :=
  ∀ f ∈ s.selected, f.cacheable = false

variable {s s' s₁ s₂ : FrameStack} {f : Frame}

theorem Lowers.refl (s : FrameStack) : s.Lowers s :=
  ⟨rfl, Framewise.refl (fun _ h => h) s⟩

theorem Lowers.trans (h₁ : s.Lowers s₁) (h₂ : s₁.Lowers s₂) : s.Lowers s₂ :=
  ⟨h₂.policy.trans h₁.policy, forall₂_trans (fun _ _ _ hf hg h => hf (hg h)) h₁.frames h₂.frames⟩

theorem lowers_recordInlined (s : FrameStack) (f : Frame) : s.Lowers (s.recordInlined f) :=
  ⟨rfl, framewise_recordInlined (fun _ h => h) (fun _ h => h) s⟩

theorem lowers_markUncacheable (s : FrameStack) : s.Lowers s.markUncacheable :=
  ⟨s.policy_mark, framewise_markUncacheable (fun _ h => h) (fun _ h => absurd h Bool.false_ne_true) s⟩

/-- What was pushed can be popped, and beneath it the flags have gone down at most. -/
theorem Lowers.pop?_push {name : String} (h : (s.push name).Lowers s') : ∃ f s₁, s'.pop? = some (f, s₁) ∧
    s.Lowers s₁ := by
  obtain ⟨f, s₁, hp, -, hframes, hpolicy⟩ := Framewise.pop?_push h.frames
  exact ⟨f, s₁, hp, hpolicy.trans h.policy, hframes⟩

theorem marked_markUncacheable (s : FrameStack) : s.markUncacheable.Marked := by
  intro f hf
  obtain ⟨_ | _, fs⟩ := s
  · simp only [markUncacheable, selected, TaintPolicy.spreads, if_true] at hf
    obtain ⟨g, -, rfl⟩ := List.mem_map.mp hf
    rfl
  · cases fs with
    | nil => cases hf
    | cons g fs =>
      obtain rfl := List.mem_singleton.mp hf
      rfl

theorem Lowers.selected (h : s.Lowers s') :
    List.Forall₂ (fun f f' : Frame => f'.cacheable = true → f.cacheable = true) s.selected s'.selected := by
  rw [FrameStack.selected, FrameStack.selected, h.policy]
  split
  · exact h.frames
  · exact List.forall₂_take 1 h.frames

/-- Frames that are all uncacheable stay so. -/
theorem forall_uncacheable {fs fs' : List Frame}
    (h : List.Forall₂ (fun f f' : Frame => f'.cacheable = true → f.cacheable = true) fs fs')
    (hfs : ∀ f ∈ fs, f.cacheable = false) : ∀ f ∈ fs', f.cacheable = false := by
  induction h with
  | nil => exact hfs
  | cons hf _ ih =>
    obtain ⟨hfalse, hfs⟩ := List.forall_mem_cons.mp hfs
    refine List.forall_mem_cons.mpr ⟨Bool.eq_false_iff.mpr fun h => ?_, ih hfs⟩
    rw [hf h] at hfalse
    cases hfalse

theorem Marked.lowers (hm : s.Marked) (h : s.Lowers s') : s'.Marked :=
  forall_uncacheable h.selected hm

/-- Of a marked stack the innermost frame is uncacheable, and all others are if marks spread. -/
theorem Marked.pop? (hm : s.Marked) (hp : s.pop? = some (f, s₁)) :
    f.cacheable = false ∧ (s₁.policy.spreads = true → ∀ g ∈ s₁.frames, g.cacheable = false) := by
  obtain ⟨π, _ | ⟨f', fs⟩⟩ := s
  · cases hp
  · cases hp
    rw [Marked, FrameStack.selected] at hm
    split at hm
    · exact ⟨hm f List.mem_cons_self, fun _ g hg => hm g (List.mem_cons_of_mem f hg)⟩
    · rename_i hspreads
      exact ⟨hm f List.mem_cons_self, fun h => absurd h hspreads⟩

theorem marked_of_forall (h : ∀ f ∈ s.frames, f.cacheable = false) : s.Marked := by
  intro f hf
  rw [FrameStack.selected] at hf
  split at hf
  · exact h f hf
  · exact h f (List.mem_of_mem_take hf)

end FrameStack

/-! ## Registers -/

/-- The stack of `r'` is that of `r` with flags that have gone down at most; nothing is said about the mode and the
artifacts. -/
def Registers.Lowers (r r' : Registers) : Prop :=
  r.stack.Lowers r'.stack

theorem bound_lowers : Bound Registers.Lowers where
  refl r := .refl r.stack
  trans h₁ h₂ := h₁.trans h₂
  mark r := r.stack.lowers_markUncacheable

theorem bracketed_lowers : Bracketed Registers.Lowers where
  toBound := bound_lowers
  record r f := r.stack.lowers_recordInlined f
  store r _ := .refl r.stack
  push h := FrameStack.Lowers.pop?_push h

/-- After a run that marks at some point, the stack is marked. -/
theorem Run.MarksWithin.marked {s ε α : Type} {look : s → Registers} {x : Run s ε α} {w : s}
    (h : Run.MarksWithin look Registers.Lowers x w) : (look (x.run w).2).stack.Marked := by
  obtain ⟨r, -, hafter⟩ := h
  exact r.stack.marked_markUncacheable.lowers hafter

/-! ## Renders -/

section

variable {σ α : Type} {h : Handle}

theorem restores_lowers : Restores h fun w w' : World σ => (w.registersAt h).Lowers (w'.registersAt h) :=
  bracketed_lowers.restores h

/-- A body that lowers flags at most leaves the frame that was pushed before it on top. -/
theorem exists_pop?_entered {body : RenderRun σ α} (hb : Run.Within (World.registersAt h) Registers.Lowers body)
    (name : String) (w : World σ) :
    ∃ f s, (((body.run (w.entered h name)).2.registers.get h).stack.pop? = some (f, s)) ∧
      (w.registers.get h).stack.Lowers s := by
  have hbody := hb (w.entered h name)
  rw [World.registersAt, World.entered, Shared.get_modifyRegisters_self] at hbody
  exact FrameStack.Lowers.pop?_push hbody

theorem lowers_settleInclusion {ω : Type} {ctx : Context ω} {tag : Inclusion} {text : String} {frame : Frame} :
    Run.Within (World.registersAt ctx.registers) Registers.Lowers (settleInclusion (σ := σ) ctx tag text frame) :=
  restores_lowers.keeps_settleInclusion tag text frame

end

namespace Environment

variable {ω σ : Type} [DataModel ω σ] {ctx : Context ω}

/-- No inclusion turns the flag of a frame around it back to cacheable. -/
theorem lowers_expandWithin (hc : ctx.Confined Registers.Lowers) (levels : Nat) (tag : Inclusion) :
    Run.Within (World.registersAt ctx.registers) Registers.Lowers (cached.expandWithin (σ := σ) ctx levels tag) :=
  keeps_expandWithin restores_lowers (bracketed_lowers.keeps_evaluate hc) cached levels tag

theorem lowers_renderWith (hc : ctx.Confined Registers.Lowers) (levels : Nat) (nodes : List Node) :
    Run.Within (World.registersAt ctx.registers) Registers.Lowers
      (renderWith (σ := σ) ctx (cached.expandWithin ctx levels) nodes) :=
  keeps_renderWith restores_lowers (bracketed_lowers.keeps_evaluate hc) (lowers_expandWithin hc levels) nodes

theorem lowers_renderTemplate (hc : ctx.Confined Registers.Lowers) (levels : Nat) (name : String) :
    Run.Within (World.registersAt ctx.registers) Registers.Lowers
      (renderTemplate (σ := σ) ctx (cached.expandWithin ctx levels) name) :=
  keeps_renderTemplate restores_lowers (bracketed_lowers.keeps_evaluate hc) (lowers_expandWithin hc levels) name

end Environment

end HybridTemplate
