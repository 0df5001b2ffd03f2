import HybridTemplate.Proofs.Absorb
import HybridTemplate.Proofs.Runs

/-!
# What an output does to the registers

* `Run.OnlyMarks` — whatever else a run does, to the registers of the render it does nothing but mark;
* `Run.Settles` — a run has the same answer in every state, and marks in every state or in none;
* `Context.Pure` — every object that a path from a variable leads to answers as a function of the member alone and
  leaves the registers alone, so that only the layers around objects mark;
* `Context.Pure.settles` — then every output settles, and one of a decorated variable marks
  (`Context.Decorated.touches`).
-/

namespace HybridTemplate

open Registers (Handle)

/-! ## Marks -/

namespace Registers

/-- The registers with a step on their stack. -/
def absorb (r : Registers) (marked : Bool) (names : NameSet) : Registers :=
  r.mapStack (·.absorb marked names)

@[simp] theorem absorb_false_empty (r : Registers) : r.absorb false ∅ = r := by
  simp [absorb, mapStack]

theorem markUncacheable_eq_absorb (r : Registers) : r.markUncacheable = r.absorb true ∅ := by
  simp [markUncacheable, absorb, mapStack, FrameStack.markUncacheable_eq_absorb]

theorem absorb_absorb (r : Registers) (m n : Bool) (a b : NameSet) :
    (r.absorb m a).absorb n b = r.absorb (m || n) (a.union b) := by
  simp [absorb, mapStack, FrameStack.absorb_absorb]

@[simp] theorem caching_absorb (r : Registers) (m : Bool) (a : NameSet) : (r.absorb m a).caching = r.caching := rfl

@[simp] theorem policy_absorb (r : Registers) (m : Bool) (a : NameSet) : (r.absorb m a).policy = r.policy := rfl

@[simp] theorem store_absorb (r : Registers) (m : Bool) (a : NameSet) : (r.absorb m a).store = r.store := rfl

end Registers

namespace Run

variable {σ ε α β : Type} {h : Handle} {x : Run (Shared σ) ε α} {f : α → Run (Shared σ) ε β}

/-- The run leaves the registers as they are, or marks the inclusions in progress. -/
def OnlyMarks (h : Handle) (x : Run (Shared σ) ε α) : Prop :=
  ∀ w, ∃ m, (x.run w).2.registers.get h = (w.registers.get h).absorb m ∅

/-- The run answers `r` in every state and leaves all registers alone. -/
def Answers (x : Run (Shared σ) ε α) (r : Except (Failure ε) α) : Prop :=
  ∀ w, (x.run w).1 = r ∧ ∀ k, (x.run w).2.registers.get k = w.registers.get k

/-- The run answers `r` in every state, and marks the inclusions in progress just if `marks`. -/
def Settles (h : Handle) (x : Run (Shared σ) ε α) (r : Except (Failure ε) α) (marks : Bool) : Prop :=
  ∀ w, (x.run w).1 = r ∧ (x.run w).2.registers.get h = (w.registers.get h).absorb marks ∅

theorem Settles.onlyMarks {r : Except (Failure ε) α} {m : Bool} (hx : Settles h x r m) : OnlyMarks h x :=
  fun w => ⟨m, (hx w).2⟩

theorem Answers.settles {r : Except (Failure ε) α} (hx : Answers x r) : Settles h x r false := by
  intro w
  obtain ⟨hr, hk⟩ := hx w
  exact ⟨hr, by rw [hk, Registers.absorb_false_empty]⟩

theorem settles_pure (a : α) : Settles h (pure a : Run (Shared σ) ε α) (.ok a) false :=
  fun w => ⟨rfl, by simp⟩

theorem Settles.bind {a : α} {r : Except (Failure ε) β} {m n : Bool} (hx : Settles h x (.ok a) m)
    (hf : Settles h (f a) r n) : Settles h (x >>= f) r (m || n) := by
  intro w
  obtain ⟨h₁, h₂⟩ := hx w
  obtain ⟨h₃, h₄⟩ := hf (x.run w).2
  rw [bind_run_of_ok (Prod.ext h₁ rfl)]
  exact ⟨h₃, by rw [h₄, h₂, Registers.absorb_absorb, NameSet.union_empty]⟩

theorem Settles.bind_error {e : Failure ε} {m : Bool} (hx : Settles h x (.error e) m) :
    Settles h (x >>= f) (.error e) m := by
  intro w
  obtain ⟨h₁, h₂⟩ := hx w
  rw [bind_run_of_error (Prod.ext h₁ rfl)]
  exact ⟨rfl, h₂⟩

/-- A sequence settles if what comes second settles for every answer of the first; it marks if either part does. -/
theorem Settles.bind_of {r : Except (Failure ε) α} {m : Bool} (hx : Settles h x r m)
    (hf : ∀ a, r = .ok a → ∃ r' n, Settles h (f a) r' n) :
    ∃ r' n, Settles h (x >>= f) r' n ∧ (m = true → n = true) := by
  rcases r with e | a
  · exact ⟨_, _, hx.bind_error, id⟩
  · obtain ⟨r', n, hn⟩ := hf a rfl
    exact ⟨r', m || n, hx.bind hn, fun hm => by simp [hm]⟩

end Run

/-! ## Layers -/

namespace DataObject

variable {ω σ α : Type} {h : Handle}

/-- The object behind all layers. -/
def core : DataObject ω → ω
  | bare o => o
  | uncacheable o _ => o.core

/-- Whether one of the layers knows the registers. -/
def Knows (h : Handle) : DataObject ω → Prop
  | bare _ => False
  | uncacheable o registers => registers = some h ∨ o.Knows h

theorem settles_taint (registers : Option Handle) (member : String) :
    ∃ m, Run.Settles h (taint (σ := σ) registers member) (.ok ()) m ∧ (m = true ↔ registers = some h) := by
  rcases registers with _ | k
  · exact ⟨false, Run.settles_pure (), by simp⟩
  · by_cases hk : k = h
    · subst hk
      refine ⟨true, fun w => ⟨rfl, ?_⟩, by simp⟩
      rw [← Registers.markUncacheable_eq_absorb]
      exact Bank.get_modify_self _ _ _
    · refine ⟨false, fun w => ⟨rfl, ?_⟩, by simp [hk]⟩
      rw [Registers.absorb_false_empty]
      exact Bank.get_modify_of_ne _ _ (Ne.symm hk)

/-- An access through layers answers as the object does, and marks if a layer knows the registers. -/
theorem settles_access (member : String) (act : ω → ObjectRun σ α) {r : Except (Failure RenderError) α}
    (o : DataObject ω) (ha : Run.Answers (act o.core) r) :
    ∃ m, Run.Settles h (o.access member act) r m ∧ (m = true ↔ o.Knows h) := by
  induction o with
  | bare o => exact ⟨false, ha.settles, by simp [Knows]⟩
  | uncacheable o registers ih =>
    obtain ⟨m, hm, hreg⟩ := settles_taint (σ := σ) (h := h) registers member
    obtain ⟨n, hn, hk⟩ := ih ha
    exact ⟨m || n, hm.bind hn, by rw [Bool.or_eq_true, hreg, hk, Knows]⟩

end DataObject

/-! ## Pure objects -/

section

variable {ω σ : Type} [DataModel ω σ]

/-- The objects in `held` answer as functions of the member alone and leave the registers alone, and the objects they
answer are in `held` as well. -/
structure PureObjects (held : ω → Prop) : Prop where
  invoke : ∀ o, held o → ∀ member, ∃ r, Run.Answers (DataModel.invoke o member) r ∧
    ∀ o', r = .ok (.object o') → held o'.core
  toOutput : ∀ o, held o → ∃ r, Run.Answers (DataModel.toOutput o) r

namespace Value

variable {held : ω → Prop} {h : Handle}

/-- A value whose object, if it is one, is in `held`. -/
def In (held : ω → Prop) (v : Value ω) : Prop :=
  ∀ o, v = .object o → held o.core

/-- Whether the value is an object with a layer that knows the registers. -/
def Knows (h : Handle) (v : Value ω) : Prop :=
  ∃ o, v = .object o ∧ o.Knows h

theorem settles_get (hp : PureObjects held) {v : Value ω} (hv : v.In held) (key : String) :
    ∃ r m, Run.Settles h (v.get key) r m ∧ (m = true ↔ v.Knows h) ∧
      ∀ o', r = .ok (.object o') → held o'.core ∧ ∃ o, held o ∧ Run.Answers (DataModel.invoke o key) r := by
  rcases v with j | o
  · refine ⟨_, _, Run.settles_pure _, by simp [Knows], ?_⟩
    intro o' hr
    cases hr
  · obtain ⟨r, ha, hheld⟩ := hp.invoke o.core (hv o rfl) key
    obtain ⟨m, hm, hk⟩ :=
      DataObject.settles_access (h := h) key (fun o => DataModel.invoke o key) o ha
    refine ⟨r, m, hm, by simpa [Knows] using hk, ?_⟩
    intro o' hr
    exact ⟨hheld o' hr, o.core, hv o rfl, ha⟩

theorem settles_render (hp : PureObjects held) {v : Value ω} (hv : v.In held) :
    ∃ r m, Run.Settles h v.render r m ∧ (m = true ↔ v.Knows h) := by
  rcases v with j | o
  · exact ⟨_, _, Run.settles_pure _, by simp [Knows]⟩
  · obtain ⟨r, ha⟩ := hp.toOutput o.core (hv o rfl)
    obtain ⟨m, hm, hk⟩ := DataObject.settles_access (h := h) "to_output" DataModel.toOutput o ha
    exact ⟨r, m, hm, by simpa [Knows] using hk⟩

/-- The text at the end of a path: it is the same in every state, and whether the path marks is as well. -/
theorem settles_path (hp : PureObjects held) (keys : List String) {v : Value ω} (hv : v.In held) :
    ∃ r m, Run.Settles h (do (← v.getAll keys).render) r m ∧ (v.Knows h → m = true) := by
  induction keys generalizing v with
  | nil =>
    obtain ⟨r, m, hm, hk⟩ := settles_render (h := h) hp hv
    exact ⟨r, m, hm, hk.mpr⟩
  | cons key keys ih =>
    obtain ⟨r, m, hm, hk, hin⟩ := settles_get (h := h) hp hv key
    have hrest : ∀ v', r = .ok v' → ∃ r' n, Run.Settles h (do (← v'.getAll keys).render) r' n := by
      intro v' hr
      have hv' : v'.In held := fun o' ho => (hin o' (ho ▸ hr)).1
      obtain ⟨r', n, hn, _⟩ := ih hv'
      exact ⟨r', n, hn⟩
    obtain ⟨r', n, hn, hmn⟩ := hm.bind_of hrest
    refine ⟨r', n, ?_, fun hv => hmn (hk.mpr hv)⟩
    simpa only [getAll, bind_assoc] using hn

/-- If no object answers one with a layer that knows the registers, a path marks nothing unless it starts at one. -/
theorem settles_path_of_not_knows (hp : PureObjects held)
    (hplain : ∀ o, held o → ∀ key o', Run.Answers (DataModel.invoke o key) (.ok (.object o')) → ¬o'.Knows h)
    (keys : List String) {v : Value ω} (hv : v.In held) (hk : ¬v.Knows h) :
    ∃ r, Run.Settles h (do (← v.getAll keys).render) r false := by
  induction keys generalizing v with
  | nil =>
    obtain ⟨r, m, hm, hmk⟩ := settles_render (h := h) hp hv
    obtain rfl : m = false := Bool.eq_false_iff.mpr fun ht => hk (hmk.mp ht)
    exact ⟨r, hm⟩
  | cons key keys ih =>
    obtain ⟨r, m, hm, hmk, hin⟩ := settles_get (h := h) hp hv key
    obtain rfl : m = false := Bool.eq_false_iff.mpr fun ht => hk (hmk.mp ht)
    simp only [getAll, bind_assoc]
    rcases r with e | v'
    · exact ⟨_, hm.bind_error⟩
    · have hv' : v'.In held := fun o' ho => (hin o' (congrArg _ ho)).1
      have hk' : ¬v'.Knows h := by
        rintro ⟨o', rfl, ho'⟩
        obtain ⟨-, o, ho, ha⟩ := hin o' rfl
        exact hplain o ho key o' ha ho'
      obtain ⟨r', hr'⟩ := ih hv' hk'
      exact ⟨r', hm.bind hr'⟩

end Value

end

/-! ## Contexts -/

namespace Context

variable {ω σ : Type}

theorem lookup_assign (ctx : Context ω) (name : String) (v : Value ω) (key : String) :
    (ctx.assign name v).lookup key = if key = name then v else ctx.lookup key := by
  rw [lookup, assign, NameMap.get?_insert]
  split <;> rfl

/-- The variable is bound to an object with a layer that knows the registers of the render. -/
def Decorated (ctx : Context ω) (name : String) : Prop :=
  (ctx.lookup name).Knows ctx.registers

/-- An object that is prepared behind a layer of its own is decorated. -/
theorem decorated_assignObject [Exposable ω σ] (ctx : Context ω) (name : String) (o : DataObject ω) (w : Shared σ) :
    ((ctx.assignObject name o.intercepted).run w).1.Decorated name := by
  let prepared := (DataObject.setRegisters ctx.registers (o.toRenderable.run w).1).run (o.toRenderable.run w).2
  refine ⟨.uncacheable prepared.1 (some ctx.registers), ?_, Or.inl rfl⟩
  show (NameMap.get? (ctx.assigns.insert name _) name).getD .null = _
  rw [NameMap.get?_insert_self]
  rfl

variable [DataModel ω σ]

/-- An evaluation of the output may change the registers of the render. -/
def Touches (ctx : Context ω) (v : Variable) : Prop :=
  ∃ w, ((ctx.evaluate v).run w).2.registers.get ctx.registers ≠ w.registers.get ctx.registers

/-- The text of the output in every state. -/
def Shows (ctx : Context ω) (v : Variable) (text : String) : Prop :=
  ∀ w, ((ctx.evaluate v).run w).1 = .ok text

/-- All objects within reach of the variables are pure. -/
def Pure (ctx : Context ω) : Prop :=
  ∃ held : ω → Prop, PureObjects held ∧ ∀ name, (ctx.lookup name).In held

/-- The evaluation of an output does nothing to the registers of the render but mark. -/
def OnlyMarks (ctx : Context ω) : Prop :=
  ∀ v, Run.OnlyMarks ctx.registers (ctx.evaluate v)

variable {ctx : Context ω}

theorem Pure.settles_decorated (hp : ctx.Pure) (v : Variable) :
    ∃ r m, Run.Settles ctx.registers (ctx.evaluate v) r m ∧ (ctx.Decorated v.name → m = true) := by
  obtain ⟨held, hheld, hin⟩ := hp
  exact Value.settles_path hheld v.members (hin v.name)

/-- A mark shows on the registers as soon as there is a frame. -/
theorem touches_of_settles {v : Variable} {r : Except (Failure RenderError) String}
    (hs : Run.Settles ctx.registers (ctx.evaluate v) r true) (w : Shared σ) : ctx.Touches v := by
  refine ⟨w.modifyRegisters ctx.registers fun _ => { stack := { policy := .localOnly, frames := [{ name := "" }] } },
    fun he => ?_⟩
  rw [(hs _).2, Shared.get_modifyRegisters_self] at he
  have hf := congrArg (fun r : Registers => r.stack.frames.map Frame.cacheable) he
  simp [Registers.absorb, Registers.mapStack, FrameStack.absorb] at hf

/-- In a pure context an output settles, and it marks just if it touches the registers. -/
theorem Pure.settles (hp : ctx.Pure) (v : Variable) (w : Shared σ) :
    ∃ r m, Run.Settles ctx.registers (ctx.evaluate v) r m ∧ (m = true ↔ ctx.Touches v) := by
  obtain ⟨r, m, hs, _⟩ := hp.settles_decorated v
  refine ⟨r, m, hs, ?_, ?_⟩
  · rintro rfl
    exact touches_of_settles hs w
  · rintro ⟨w', hw'⟩
    cases m with
    | true => rfl
    | false => exact absurd (by rw [(hs w').2, Registers.absorb_false_empty]) hw'

/-- An output of a decorated variable touches the registers. -/
theorem Decorated.touches (hp : ctx.Pure) {v : Variable} (hd : ctx.Decorated v.name) (w : Shared σ) :
    ctx.Touches v := by
  obtain ⟨r, m, hs, hm⟩ := hp.settles_decorated v
  obtain rfl := hm hd
  exact touches_of_settles hs w

/-- If no object answers one with a layer that knows the registers, only outputs of decorated variables touch them. -/
theorem decorated_of_touches {held : ω → Prop} (hp : PureObjects held) (hin : ∀ name, (ctx.lookup name).In held)
    (hplain : ∀ o, held o → ∀ key o', Run.Answers (DataModel.invoke o key) (.ok (.object o')) →
      ¬o'.Knows ctx.registers) {v : Variable} (ht : ctx.Touches v) : ctx.Decorated v.name := by
  obtain ⟨w, hw⟩ := ht
  refine Classical.not_not.mp fun hd => hw ?_
  obtain ⟨r, hr⟩ := Value.settles_path_of_not_knows hp hplain v.members (hin v.name) hd
  exact (hr w).2.trans (Registers.absorb_false_empty _)

theorem Pure.onlyMarks (hp : ctx.Pure) : ctx.OnlyMarks := by
  intro v
  obtain ⟨r, m, hs, _⟩ := hp.settles_decorated v
  exact hs.onlyMarks

end Context

end HybridTemplate
