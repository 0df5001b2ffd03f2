import HybridTemplate.Proofs.Confined
import HybridTemplate.Proofs.Related

/-!
# Objects that are watched

A data object can be wrapped so that every call to it is noted, together with what it answered. What the objects answer
is wrapped as well, so the notes have all calls that a render makes, in order.

* `Call`, `Watched`, `Watch` — the calls, the wrapped objects and their state, which has the notes;
* `Environment.calls` — the calls that a render makes;
* `render_watched` — nobody can tell that the objects are watched: the render gives the same result and leaves the same
  state but for the notes;
* `Confined.watched` — and what the objects keep to is kept when they are watched;
* `Watched.Follows` — a step that prepares watched objects beside the one that prepares the objects themselves.
-/

namespace HybridTemplate

open Registers (Handle)
open World

/-! ## Wrapped objects -/

/-- A call to an object; an access is noted with its answer. -/
inductive Call (ω : Type) where
  | converted (object : ω)
  | told (object : ω) (registers : Handle)
  | invoked (object : ω) (member : String) (answer : Except (Failure RenderError) (Value ω))
  | shown (object : ω) (answer : Except (Failure RenderError) String)

/-- An object whose calls are noted. -/
structure Watched (ω : Type) where
  object : ω

/-- The state of objects whose calls are noted. -/
structure Watch (ω σ : Type) where
  objects : σ
  /-- The calls so far, latest first. -/
  calls : List (Call ω)

/-- The object with `f` applied behind all layers. -/
def DataObject.map {ω ω' : Type} (f : ω → ω') : DataObject ω → DataObject ω'
  | bare o => bare (f o)
  | uncacheable o registers => uncacheable (o.map f) registers

/-- The value with `f` applied to its object, if it is one. -/
def Value.map {ω ω' : Type} (f : ω → ω') : Value ω → Value ω'
  | json v => json v
  | object o => object (o.map f)

section

variable {ω σ α : Type}

/-- The state that is shared with the objects themselves. -/
def Shared.unwatched (w : Shared (Watch ω σ)) : Shared σ :=
  { w with objects := w.objects.objects }

/-- The state that is shared with watched objects after these calls, latest first. -/
def Shared.watched (calls : List (Call ω)) (w : Shared σ) : Shared (Watch ω σ) :=
  { w with objects := { objects := w.objects, calls } }

/-- The state without what was noted. -/
def World.unwatched (w : World (Watch ω σ)) : World σ :=
  { w with toShared := w.toShared.unwatched }

/-- The state of a render with watched objects after these calls, latest first. -/
def World.watched (calls : List (Call ω)) (w : World σ) : World (Watch ω σ) :=
  { w with toShared := w.toShared.watched calls }

/-- A step of an object, which is noted. -/
def Watched.step (x : StateM (Shared σ) α) (note : Call ω) : StateM (Shared (Watch ω σ)) α :=
  fun w => let (a, s) := x.run w.unwatched; (a, s.watched (note :: w.objects.calls))

/-- An access to an object, which is noted with its answer. -/
def Watched.access (x : ObjectRun σ α) (note : Except (Failure RenderError) α → Call ω) :
    ObjectRun (Watch ω σ) α :=
  fun w => let (r, s) := x.run w.unwatched; (r, s.watched (note r :: w.objects.calls))

instance [DataModel ω σ] : DataModel (Watched ω) (Watch ω σ) where
  setRegisters o h := Watched.mk <$> Watched.step (Exposable.setRegisters o.object h) (.told o.object h)
  toRenderable o := DataObject.map .mk <$> Watched.step (Exposable.toRenderable o.object) (.converted o.object)
  invoke o member := Value.map .mk <$> Watched.access (DataModel.invoke o.object member) (.invoked o.object member)
  toOutput o := Watched.access (DataModel.toOutput o.object) (.shown o.object)

/-- The context with all its objects watched. -/
def Context.watched (ctx : Context ω) : Context (Watched ω) :=
  { assigns := ctx.assigns.map (Value.map .mk), registers := ctx.registers, includeLimit := ctx.includeLimit }

/-- The calls that a render makes to objects, latest first. -/
def Environment.calls [DataModel ω σ] (env : Environment) (ctx : Context ω) (t : Template) (w : World σ) :
    List (Call ω) :=
  ((env.render ctx.watched t).run (w.watched [])).2.objects.calls

theorem Context.lookup_watched (ctx : Context ω) (name : String) :
    ctx.watched.lookup name = (ctx.lookup name).map .mk := by
  rw [lookup, lookup, watched, NameMap.get?_map]
  cases ctx.assigns.get? name <;> rfl

@[simp] theorem DataObject.core_map {ω' : Type} (f : ω → ω') (o : DataObject ω) : (o.map f).core = f o.core := by
  induction o with
  | bare o => rfl
  | uncacheable o registers ih => exact ih

/-! ## Watching changes nothing -/

/-- The states are the same but for what was noted in the first one. -/
def Shared.Watches (w : Shared (Watch ω σ)) (w' : Shared σ) : Prop :=
  w.unwatched = w'

/-- The states are the same but for what was noted in the first one. -/
def World.Watches (w : World (Watch ω σ)) (w' : World σ) : Prop :=
  w.unwatched = w'

theorem coupled_watches (h : Handle) : Coupled h h (fun _ => True) (World.Watches (ω := ω) (σ := σ)) where
  depth := by rintro w _ rfl; rfl
  atDepth := by rintro w _ d rfl; rfl
  read := by rintro w _ name - rfl; exact ⟨rfl, rfl⟩
  report := by rintro w _ e rfl; rfl
  registers := by rintro w _ rfl; rfl
  modify := by rintro w _ g - rfl; rfl

theorem related_watched_access (x : ObjectRun σ α) (note : Except (Failure RenderError) α → Call ω) :
    Run.Related Shared.Watches Eq (Watched.access x note) x := by
  rintro w _ rfl
  exact ⟨.of_eq (fun _ => rfl) rfl, rfl⟩

variable {α' : Type} {q : α → α' → Prop}

/-- Layers around an object take no part in how an access ends, if it cannot be told that they mark on both sides. -/
theorem DataObject.related_access {R : Shared σ → Shared σ → Prop} {q : α → α → Prop} {act : ω → ObjectRun σ α}
    {member : String} (ht : ∀ registers, Run.Related R Eq (taint registers member) (taint registers member))
    {o : DataObject ω} (ha : Run.Related R q (act o.core) (act o.core)) :
    Run.Related R q (o.access member act) (o.access member act) := by
  induction o with
  | bare o => exact ha
  | uncacheable o registers ih => exact (ht registers).bind fun _ _ _ => ih ha

/-- An access passes layers around a watched object just as it passes those around the object itself. -/
theorem DataObject.related_access_watched {act : Watched ω → ObjectRun (Watch ω σ) α} {act' : ω → ObjectRun σ α'}
    (ha : ∀ o, Run.Related Shared.Watches q (act ⟨o⟩) (act' o)) (member : String) (o : DataObject ω) :
    Run.Related Shared.Watches q ((o.map Watched.mk).access member act) (o.access member act') := by
  induction o with
  | bare o => exact ha o
  | uncacheable o registers ih =>
    have htaint : Run.Related Shared.Watches Eq (taint (σ := Watch ω σ) registers member)
        (taint (σ := σ) registers member) := by
      rintro w _ rfl
      cases registers with
      | none => exact ⟨.ok rfl, rfl⟩
      | some h => exact ⟨.ok rfl, rfl⟩
    exact htaint.bind fun _ _ _ => ih

variable [DataModel ω σ]

theorem Watched.invoke_run (o : Watched ω) (member : String) (w : Shared (Watch ω σ)) :
    (DataModel.invoke o member).run w = (((DataModel.invoke o.object member).run w.unwatched).1.map (Value.map .mk),
      ((DataModel.invoke o.object member).run w.unwatched).2.watched
        (.invoked o.object member ((DataModel.invoke o.object member).run w.unwatched).1 :: w.objects.calls)) :=
  Run.map_run _ _ _

theorem Value.related_get_watched (key : String) (v : Value ω) :
    Run.Related Shared.Watches (fun v v' => v = v'.map .mk) ((v.map Watched.mk).get key) (v.get key) := by
  cases v with
  | json v => exact Run.related_pure rfl
  | object o =>
    refine DataObject.related_access_watched (fun o => ?_) key o
    rintro w _ rfl
    rw [Watched.invoke_run]
    refine ⟨?_, rfl⟩
    rcases ((DataModel.invoke o key).run w.unwatched).1 with e | v
    · exact .error e
    · exact .ok rfl

theorem Value.related_render_watched (v : Value ω) :
    Run.Related Shared.Watches Eq (v.map Watched.mk).render v.render := by
  cases v with
  | json v => exact Run.related_pure rfl
  | object o => exact DataObject.related_access_watched (fun o => related_watched_access _ _) "to_output" o

theorem Value.related_path_watched (keys : List String) (v : Value ω) :
    Run.Related Shared.Watches Eq (do (← (v.map Watched.mk).getAll keys).render) (do (← v.getAll keys).render) := by
  induction keys generalizing v with
  | nil => exact related_render_watched v
  | cons key keys ih =>
    rw [path_cons, path_cons]
    refine (related_get_watched key v).bind fun v v' hv => ?_
    subst hv
    exact ih v'

/-- Outputs show the same when the objects are watched. -/
theorem Context.related_evaluate_watched (ctx : Context ω) (v : Variable) :
    Run.Related World.Watches Eq (lift (ctx.watched.evaluate v)) (lift (ctx.evaluate v)) := by
  rintro w _ rfl
  have hpath := Value.related_path_watched v.members (ctx.lookup v.name)
  rw [← lookup_watched] at hpath
  obtain ⟨hans, hend⟩ := hpath w.toShared _ rfl
  have hend' : ((ctx.watched.evaluate v).run w.toShared).2.unwatched = ((ctx.evaluate v).run w.toShared.unwatched).2 :=
    hend
  refine ⟨hans, ?_⟩
  show World.unwatched { w with toShared := ((ctx.watched.evaluate v).run w.toShared).2 } = _
  rw [unwatched, hend']
  rfl

/-- A render goes on as if the objects were not watched. -/
theorem Environment.render_watched (env : Environment) (ctx : Context ω) (t : Template) (w : World (Watch ω σ)) :
    ((env.render ctx.watched t).run w).1 = ((env.render ctx t).run w.unwatched).1 ∧
      ((env.render ctx.watched t).run w).2.unwatched = ((env.render ctx t).run w.unwatched).2 := by
  have hR : Coupled ctx.watched.registers ctx.registers (fun _ => True) (World.Watches (ω := ω) (σ := σ)) :=
    coupled_watches _
  have hnodes : Run.Related World.Watches Eq (env.renderNodes ctx.watched t) (env.renderNodes ctx t) :=
    related_renderNodes hR rfl ctx.related_evaluate_watched env fun _ _ => trivial
  have hstart : World.Watches (renderStart ctx.watched w) (renderStart ctx w.unwatched) := rfl
  obtain ⟨hans, hend⟩ := related_render hR.toCongruent hnodes hstart
  exact ⟨hans.eq, hend⟩

/-! ## What objects keep to -/

/-- What objects keep to is kept when they are watched. -/
theorem Confined.watched {S : Registers → Registers → Prop} {h : Handle} {held : ω → Prop}
    (hc : Confined S h held) : Confined S h fun o : Watched ω => held o.object where
  invoke o ho member w := by
    rw [Watched.invoke_run]
    exact hc.invoke o.object ho member w.unwatched
  toOutput o ho w := hc.toOutput o.object ho w.unwatched
  answer o ho member w o' ha := by
    rw [Watched.invoke_run] at ha
    rcases hr : ((DataModel.invoke o.object member).run w.unwatched).1 with e | v
    · rw [hr] at ha
      cases ha
    · rw [hr] at ha
      cases v with
      | json j => cases ha
      | object o'' =>
        cases ha
        rw [DataObject.core_map]
        exact hc.answer o.object ho member w.unwatched o'' hr

theorem Value.in_watched {held : ω → Prop} {v : Value ω} (hv : v.In held) :
    (v.map Watched.mk).In fun o => held o.object := by
  cases v with
  | json j => rintro o ⟨⟩
  | object o =>
    rintro _ ⟨⟩
    rw [DataObject.core_map]
    exact hv o rfl

theorem Context.Confined.watched {S : Registers → Registers → Prop} {ctx : Context ω} (hc : ctx.Confined S) :
    ctx.watched.Confined S := by
  obtain ⟨held, hheld, hin⟩ := hc
  refine ⟨_, hheld.watched, fun name => ?_⟩
  rw [lookup_watched]
  exact Value.in_watched (hin name)

end

/-! ## Preparing watched objects -/

namespace Watched

variable {ω σ α β γ δ : Type}

/-- The step with watched objects gives what `f` makes of the answer of the other one, and leaves the same state. -/
def Follows (f : β → α) (x : StateM (Shared (Watch ω σ)) α) (y : StateM (Shared σ) β) : Prop :=
  ∀ w, (x.run w).1 = f (y.run w.unwatched).1 ∧ (x.run w).2.unwatched = (y.run w.unwatched).2

theorem Follows.bind {f : β → α} {g : δ → γ} {x : StateM (Shared (Watch ω σ)) α} {y : StateM (Shared σ) β}
    {k : α → StateM (Shared (Watch ω σ)) γ} {k' : β → StateM (Shared σ) δ} (hx : Follows f x y)
    (hk : ∀ b, Follows g (k (f b)) (k' b)) : Follows g (x >>= k) (y >>= k') := by
  intro w
  obtain ⟨hans, hend⟩ := hx w
  have hrest := hk (y.run w.unwatched).1 (x.run w).2
  rw [← hans, hend] at hrest
  exact hrest

theorem follows_pure {f : β → α} {a : α} (b : β) (h : a = f b) :
    Follows (ω := ω) (σ := σ) f (pure a) (pure b) :=
  fun _ => ⟨h, rfl⟩

section

variable [DataModel ω σ]

theorem follows_setRegisters (h : Handle) (o : DataObject ω) :
    Follows (DataObject.map Watched.mk) ((o.map Watched.mk).setRegisters h) (σ := σ) (o.setRegisters h) := by
  induction o with
  | bare o =>
    have ho : Follows Watched.mk (Exposable.setRegisters (Watched.mk o) h) (σ := σ) (Exposable.setRegisters o h) :=
      fun _ => ⟨rfl, rfl⟩
    exact ho.bind fun o' => follows_pure (DataObject.bare o') rfl
  | uncacheable o registers ih => exact ih.bind fun o' => follows_pure (DataObject.uncacheable o' (some h)) rfl

theorem follows_toRenderable (o : DataObject ω) :
    Follows (DataObject.map Watched.mk) (o.map Watched.mk).toRenderable (σ := σ) o.toRenderable := by
  induction o with
  | bare o => exact fun _ => ⟨rfl, rfl⟩
  | uncacheable o registers ih => exact ih.bind fun o' => follows_pure (DataObject.uncacheable o' registers) rfl

theorem follows_expose (h : Handle) (o : DataObject ω) :
    Follows (DataObject.map Watched.mk) ((o.map Watched.mk).expose h) (σ := σ) (o.expose h) :=
  (follows_toRenderable o).bind (follows_setRegisters h)

end

end Watched

end HybridTemplate
