import HybridTemplate.Render.Environment

/-!
# Runs taken apart

How the runs of a render decompose, one statement per operation:

* `Run.bind_eq_ok` — a sequence that answers is two runs that answer, and `bind_run_of_ok`, `bind_run_of_error` are the
  way back;
* `Run.Yields` — a bound on the answers of a run; `Run.Keeps` — a bound on what it does to the state;
* `World.nested_run`, `World.track_run` — the brackets around inclusions as equations on the run of what they enclose;
* `map_nested`, `map_track` — what becomes of the answer outside a bracket can as well be done inside.
-/

namespace HybridTemplate

open Registers (Handle)

/-! ## Sequences -/

namespace Run

variable {s ε ε' α β γ : Type} {x : Run s ε α} {f : α → Run s ε β} {w w₁ w' : s}

theorem bind_run_of_ok {a : α} (h : x.run w = (.ok a, w₁)) : (x >>= f).run w = (f a).run w₁ := by
  rw [bind_run, h]

theorem bind_run_of_error {e : Failure ε} (h : x.run w = (.error e, w₁)) : (x >>= f).run w = (.error e, w₁) := by
  rw [bind_run, h]

/-- A sequence answers only if both of its parts do. -/
theorem bind_eq_ok {b : β} (h : (x >>= f).run w = (.ok b, w')) :
    ∃ a w₁, x.run w = (.ok a, w₁) ∧ (f a).run w₁ = (.ok b, w') := by
  rw [bind_run] at h
  rcases hx : x.run w with ⟨_ | a, w₁⟩
  · rw [hx] at h; cases h
  · rw [hx] at h; exact ⟨a, w₁, rfl, h⟩

theorem map_run (g : α → β) (x : Run s ε α) (w : s) : (g <$> x).run w = ((x.run w).1.map g, (x.run w).2) := by
  rw [map_eq_pure_bind, bind_run]
  rcases x.run w with ⟨_ | _, _⟩ <;> rfl

theorem catchError_run (x : Run s ε α) (w : s) : (x.catchError : Run s ε _).run w = match x.run w with
    | (.ok a, w) => (.ok (.ok a), w)
    | (.error (.error e), w) => (.ok (.error e), w)
    | (.error (.abort a), w) => (.error (.abort a), w) := rfl

theorem pure_eq_ok {a b : α} (h : (pure a : Run s ε α).run w = (.ok b, w')) : a = b ∧ w = w' := by
  cases h; exact ⟨rfl, rfl⟩

/-! ## Answers -/

/-- Every answer of the run is in `Q`, whatever else happens. -/
def Yields (x : Run s ε α) (Q : α → Prop) : Prop :=
  ∀ w a w', x.run w = (.ok a, w') → Q a

theorem yields_true (x : Run s ε α) : Yields x fun _ => True :=
  fun _ _ _ _ => trivial

theorem yields_pure {Q : α → Prop} {a : α} (ha : Q a) : Yields (pure a : Run s ε α) Q := by
  intro w b w' hr
  obtain ⟨rfl, -⟩ := pure_eq_ok hr
  exact ha

theorem Yields.bind {Q : α → Prop} {Q' : β → Prop} (hx : Yields x Q) (hf : ∀ a, Q a → Yields (f a) Q') :
    Yields (x >>= f) Q' := by
  intro w b w' hr
  obtain ⟨a, w₁, h₁, h₂⟩ := bind_eq_ok hr
  exact hf a (hx w a w₁ h₁) w₁ b w' h₂

/-! ## What a run keeps -/

/-- However the run ends, the states before and after are in `P`. -/
def Keeps (P : s → s → Prop) (x : Run s ε α) : Prop :=
  ∀ w, P w (x.run w).2

section

variable {P : s → s → Prop}

theorem keeps_pure (hP : ∀ w, P w w) (a : α) : Keeps P (pure a : Run s ε α) :=
  fun w => hP w

theorem keeps_fail (hP : ∀ w, P w w) (e : Failure ε) : Keeps P (fail e : Run s ε α) :=
  fun w => hP w

/-- A sequence keeps what its first part keeps, if what comes second does for all answers of the first. -/
theorem Keeps.bind_of_run (hP : ∀ w₁ w₂ w₃, P w₁ w₂ → P w₂ w₃ → P w₁ w₃) (hx : Keeps P x)
    (hf : ∀ w a w', x.run w = (.ok a, w') → Keeps P (f a)) : Keeps P (x >>= f) := by
  intro w
  have h₁ := hx w
  rcases hr : x.run w with ⟨e | a, w₁⟩
  · rw [hr] at h₁
    rwa [bind_run_of_error hr]
  · rw [hr] at h₁
    rw [bind_run_of_ok hr]
    exact hP _ _ _ h₁ (hf w a w₁ hr w₁)

theorem Keeps.bind (hP : ∀ w₁ w₂ w₃, P w₁ w₂ → P w₂ w₃ → P w₁ w₃) (hx : Keeps P x) (hf : ∀ a, Keeps P (f a)) :
    Keeps P (x >>= f) :=
  hx.bind_of_run hP fun _ a _ _ => hf a

theorem Keeps.catchError (hx : Keeps P x) : Keeps P (x.catchError : Run s ε _) := by
  intro w
  have h := hx w
  rw [catchError_run]
  rcases hr : x.run w with ⟨(e | a) | a, w₁⟩ <;> rwa [hr] at h

end

end Run

/-! ## The state of a render -/

namespace World

variable {σ ε α β : Type} (w : World σ) (h : Handle)

@[simp] theorem registersOf_run : (registersOf h : Run (World σ) ε _).run w = (.ok (w.registers.get h), w) := rfl

@[simp] theorem modifyRegisters_run (g : Registers → Registers) :
    (modifyRegisters h g : Run (World σ) ε _).run w =
      (.ok (), { w with toShared := w.toShared.modifyRegisters h g }) := rfl

@[simp] theorem report_run (e : Event) :
    (report e : Run (World σ) ε _).run w = (.ok (), { w with toShared := w.toShared.report e }) := rfl

@[simp] theorem lift_run (x : Run (Shared σ) ε α) :
    (lift x).run w = ((x.run w.toShared).1, { w with toShared := (x.run w.toShared).2 }) := rfl

@[simp] theorem swapSource_run (source : Source) :
    (swapSource source : Run (World σ) ε _).run w = (.ok w.source, { w with source }) := rfl

theorem readTemplate_run (name : String) :
    (readTemplate name).run w = match w.source.answer w.source.reads name with
      | .ok text => (.ok text, { w with source := (w.source.read name).2 })
      | .error e => (.error (.error (.source e)), { w with source := (w.source.read name).2 }) := by
  have hread : (readSource (ε := RenderError) name).run w =
      (.ok (w.source.answer w.source.reads name), { w with source := (w.source.read name).2 }) := rfl
  rw [readTemplate, Run.bind_run_of_ok hread]
  cases w.source.answer w.source.reads name <;> rfl

end World

@[simp] theorem Shared.get_modifyRegisters_self {σ : Type} (w : Shared σ) (h : Handle) (g : Registers → Registers) :
    (w.modifyRegisters h g).registers.get h = g (w.registers.get h) :=
  Bank.get_modify_self _ _ _

/-! ## Brackets -/

namespace World

variable {σ ε α β : Type} (w : World σ) (h : Handle)

/-- The state one inclusion deeper. -/
def deeper (w : World σ) : World σ :=
  { w with includeDepth := w.includeDepth + 1 }

/-- The state one inclusion less deep. -/
def shallower (w : World σ) : World σ :=
  { w with includeDepth := w.includeDepth - 1 }

/-- The state with a frame for `name` on the stack. -/
def entered (w : World σ) (h : Handle) (name : String) : World σ :=
  { w with toShared := w.toShared.modifyRegisters h (·.mapStack (·.push name)) }

theorem nested_run (report : RenderError → ε) (limit : Nat) (body : Run (World σ) ε α) :
    (nested report limit body).run w =
      if limit ≤ w.includeDepth then (.error (.error (report (.nestingTooDeep w.includeDepth))), w)
      else ((body.run w.deeper).1, (body.run w.deeper).2.shallower) := by
  rw [nested, Run.bind_run_of_ok (Run.look_run _ _)]
  split
  · rfl
  · rw [Run.bind_run_of_ok (Run.modify_run _ _), Run.bind_run_of_ok (Run.attempt_run _ _),
      Run.bind_run_of_ok (Run.modify_run _ _), Run.ofExcept_run]
    rfl

/-- Where no levels are left below the limit, the check of the bracket fails with the depth. -/
theorem nested_run_of_levels_zero {limit : Nat} {w : World σ} (hw : limit - w.includeDepth = 0)
    (report : RenderError → ε) (body : Run (World σ) ε α) :
    (nested report limit body).run w = (.error (.error (report (.nestingTooDeep w.includeDepth))), w) := by
  rw [nested_run, if_pos (Nat.le_of_sub_eq_zero hw)]

/-- The answer of a run with the frame that is popped after it. -/
theorem popFrame_bind_run (r : Except (Failure ε) α) :
    (do let frame ← popFrame h; return (← Run.ofExcept r, frame) : Run (World σ) ε (α × Frame)).run w =
      match (popFrame h : Run _ ε _).run w with
      | (.ok frame, w') => (r.map (·, frame), w')
      | (.error e, w') => (.error e, w') := by
  rw [Run.bind_run]
  rcases (popFrame h : Run _ ε _).run w with ⟨_ | frame, w'⟩
  · rfl
  · cases r <;> rfl

theorem track_run (name : String) (body : Run (World σ) ε α) :
    (track h name body).run w =
      match (popFrame h : Run _ ε _).run (body.run (w.entered h name)).2 with
      | (.ok frame, w') => ((body.run (w.entered h name)).1.map (·, frame), w')
      | (.error e, w') => (.error e, w') := by
  rw [track, Run.bind_run_of_ok (modifyRegisters_run _ _ _), Run.bind_run_of_ok (Run.attempt_run _ _)]
  exact popFrame_bind_run _ h _

/-- A body that answers inside a frame, and the frame that is popped after it. -/
theorem track_run_of_ok {name : String} {body : Run (World σ) ε α} {w w₁ : World σ} {h : Handle} {a : α} {frame : Frame}
    {stack : FrameStack} (hb : body.run (w.entered h name) = (.ok a, w₁))
    (hp : (w₁.registers.get h).stack.pop? = some (frame, stack)) :
    (track h name body).run w =
      (.ok (a, frame), { w₁ with toShared := w₁.toShared.modifyRegisters h fun r => { r with stack } }) := by
  rw [track_run, hb]
  simp only [popFrame, Run.run, hp]
  rfl

/-- Only what is allowed to go deeper answers. -/
theorem nested_eq_ok {report : RenderError → ε} {limit : Nat} {body : Run (World σ) ε α} {w w' : World σ} {a : α}
    (hr : (nested report limit body).run w = (.ok a, w')) :
    w.includeDepth < limit ∧ ∃ w₁, body.run w.deeper = (.ok a, w₁) ∧ w' = w₁.shallower := by
  rw [nested_run] at hr
  split at hr
  · cases hr
  · rename_i hlimit
    refine ⟨Nat.lt_of_not_le hlimit, (body.run w.deeper).2, ?_, ?_⟩
    · rw [← (Prod.mk.inj hr).1]
    · exact (Prod.mk.inj hr).2.symm

/-- A bracket that answers has run its body, and has popped a frame after it. -/
theorem track_eq_ok {name : String} {body : Run (World σ) ε α} {w w' : World σ} {h : Handle} {a : α} {frame : Frame}
    (hr : (track h name body).run w = (.ok (a, frame), w')) :
    ∃ w₁ stack, body.run (w.entered h name) = (.ok a, w₁) ∧
      (w₁.registers.get h).stack.pop? = some (frame, stack) ∧
      w' = { w₁ with toShared := w₁.toShared.modifyRegisters h fun r => { r with stack } } := by
  rw [track_run] at hr
  rcases hb : body.run (w.entered h name) with ⟨r, w₁⟩
  rw [hb] at hr
  simp only [popFrame, Run.run] at hr
  rcases hp : (w₁.registers.get h).stack.pop? with _ | ⟨f, stack⟩
  · rw [hp] at hr; cases hr
  · rw [hp] at hr
    cases r with
    | error e => cases hr
    | ok b => cases hr; exact ⟨w₁, stack, rfl, hp, rfl⟩

theorem map_nested (g : α → β) (report : RenderError → ε) (limit : Nat) (body : Run (World σ) ε α) :
    g <$> nested report limit body = nested report limit (g <$> body) := by
  refine Run.ext fun w => ?_
  simp only [Run.map_run, nested_run]
  split <;> rfl

theorem map_track (g : α → β) (name : String) (body : Run (World σ) ε α) :
    (fun r => (g r.1, r.2)) <$> track h name body = track h name (g <$> body) := by
  refine Run.ext fun w => ?_
  simp only [Run.map_run, track_run]
  rcases (popFrame h : Run _ ε _).run (body.run (w.entered h name)).2 with ⟨_ | frame, w₁⟩
  · rfl
  · rcases (body.run (w.entered h name)).1 with _ | _ <;> rfl

end World

end HybridTemplate
