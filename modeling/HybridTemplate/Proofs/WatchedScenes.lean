import HybridTemplate.Proofs.Scenes
import HybridTemplate.Proofs.Watched

/-!
# Strategies among watched objects

Strategies work with watched objects as they work with the objects themselves: what they look at is the scene without
the notes, and what they change are not the notes.

* `Scene.watched`, `Scene.unwatched` — the scene with its objects watched, and without what was noted;
* `Environments.watched` — strategies that are handed watched objects, and `Environments.calls` — the calls that a
  render through strategies makes to objects;
* `Environments.render_watched` — nobody can tell that the objects are watched.
-/

namespace HybridTemplate

open Registers (Handle)
open World

/-! ## Watched scenes -/

section

variable {ι ω σ : Type}

/-- The context with the objects themselves. -/
def Context.unwatched (ctx : Context (Watched ω)) : Context ω :=
  { assigns := ctx.assigns.map (Value.map Watched.object), registers := ctx.registers,
    includeLimit := ctx.includeLimit }

/-- The scene with its objects watched after these calls, latest first. -/
def Scene.watched (calls : List (Call ω)) (s : Scene ω σ) : Scene (Watched ω) (Watch ω σ) :=
  { s.toWorld.watched calls with context := s.context.watched }

/-- The scene with the objects themselves and without what was noted. -/
def Scene.unwatched (s : Scene (Watched ω) (Watch ω σ)) : Scene ω σ :=
  { s.toWorld.unwatched with context := s.context.unwatched }

/-- The plan for watched objects. -/
def Plan.watched : Plan ι ω σ → Plan ι (Watched ω) (Watch ω σ)
  | give result => .give result
  | abort a => .abort a
  | look next => .look fun s => (next s.unwatched).watched
  | modify g next => .modify (fun s => (g s.unwatched).watched s.objects.calls) next.watched
  | expose o next => .expose (o.map .mk) fun o => (next (o.map Watched.object)).watched
  | get key v next => .get key (v.map .mk) fun answer => (next (answer.map (Value.map Watched.object))).watched
  | render v next => .render (v.map .mk) fun answer => (next answer).watched
  | ask env tag next => .ask env tag fun answer => (next answer).watched
  | call env tag next => .call env tag fun answer => (next answer).watched

/-- The strategy for watched objects. -/
def Strategy.watched : Strategy ι ω σ → Strategy ι (Watched ω) (Watch ω σ)
  | cacheAware => .cacheAware
  | planned plan => .planned fun env tag => (plan env tag).watched

/-- The environments for watched objects. -/
def Environments.watched (E : Environments ι ω σ) : Environments ι (Watched ω) (Watch ω σ) :=
  ⟨fun env => (E.chain env).map Strategy.watched⟩

/-- The calls that a render makes to objects, latest first. -/
def Environments.calls [DataModel ω σ] (E : Environments ι ω σ) (nesting : Nat) (env : ι) (t : Template)
    (s : Scene ω σ) : List (Call ω) :=
  ((E.watched.render nesting env t).run (s.watched [])).2.objects.calls

theorem DataObject.map_object_map_mk (o : DataObject ω) : (o.map Watched.mk).map Watched.object = o := by
  induction o with
  | bare o => rfl
  | uncacheable o registers ih => exact congrArg (uncacheable · registers) ih

theorem DataObject.map_mk_map_object (o : DataObject (Watched ω)) : (o.map Watched.object).map Watched.mk = o := by
  induction o with
  | bare o => rfl
  | uncacheable o registers ih => exact congrArg (uncacheable · registers) ih

theorem Value.map_object_map_mk (v : Value ω) : (v.map Watched.mk).map Watched.object = v := by
  cases v with
  | json v => rfl
  | object o => exact congrArg object o.map_object_map_mk

theorem Value.map_mk_map_object (v : Value (Watched ω)) : (v.map Watched.object).map Watched.mk = v := by
  cases v with
  | json v => rfl
  | object o => exact congrArg object o.map_mk_map_object

@[simp] theorem Context.unwatched_watched (ctx : Context ω) : ctx.watched.unwatched = ctx := by
  simp only [watched, unwatched, NameMap.map_map_of_leftInverse Value.map_object_map_mk]

@[simp] theorem Context.watched_unwatched (ctx : Context (Watched ω)) : ctx.unwatched.watched = ctx := by
  simp only [watched, unwatched, NameMap.map_map_of_leftInverse Value.map_mk_map_object]

@[simp] theorem Scene.unwatched_watched (calls : List (Call ω)) (s : Scene ω σ) : (s.watched calls).unwatched = s := by
  simp only [watched, unwatched, Context.unwatched_watched]
  rfl

end

/-! ## Watching changes nothing -/

section

variable {ι ω σ α β : Type} {q : α → β → Prop}

/-- The scenes are the same but for what was noted in the first one. -/
def Scene.Watches (s : Scene (Watched ω) (Watch ω σ)) (s' : Scene ω σ) : Prop :=
  s.unwatched = s'

/-- Answers that are alike are one and the same without the watching. -/
theorem EndsAlike.map_unwatched {r : Except RenderError (Value (Watched ω))} {r' : Except RenderError (Value ω)}
    (h : EndsAlike (fun v v' => v = v'.map Watched.mk) r r') : r.map (Value.map Watched.object) = r' := by
  cases h with
  | ok hv => rw [hv, Except.map, Value.map_object_map_mk]
  | error e => rfl

namespace Scene

theorem related_within_watched {x : Context (Watched ω) → RenderRun (Watch ω σ) α} {y : Context ω → RenderRun σ β}
    (h : ∀ ctx, Run.Related World.Watches q (x ctx.watched) (y ctx)) :
    Run.Related Watches q (within x) (within y) := by
  rintro s _ rfl
  obtain ⟨hans, hend⟩ := h s.context.unwatched s.toWorld _ rfl
  rw [Context.watched_unwatched] at hans hend
  exact ⟨hans, congrArg (fun w : World σ => ({ w with context := s.context.unwatched } : Scene ω σ)) hend⟩

theorem related_shared_watched {x : ObjectRun (Watch ω σ) α} {y : ObjectRun σ β}
    (h : Run.Related Shared.Watches q x y) : Run.Related Watches q (shared x) (shared y) := by
  refine related_within_watched fun _ => ?_
  rintro w _ rfl
  obtain ⟨hans, hend⟩ := h w.toShared _ rfl
  exact ⟨hans, congrArg (fun s : Shared σ => ({ w.unwatched with toShared := s } : World σ)) hend⟩

theorem related_track_watched {h : Handle} {name : String} {x : SceneRun (Watched ω) (Watch ω σ) α} {y : SceneRun ω σ β}
    (hx : Run.Related Watches q x y) :
    Run.Related Watches (fun a b => q a.1 b.1 ∧ a.2 = b.2) (track h name x) (track h name y) := by
  have hR : Coupled h h (fun _ => True) (World.Watches (ω := ω) (σ := σ)) := coupled_watches h
  have hpush : Registers.NamesOnly (fun _ => True) (·.mapStack (·.push name)) := fun _ _ _ => .inl trivial
  refine (related_within_watched fun _ => hR.related_modifyRegisters hpush).bind fun _ _ _ => ?_
  refine hx.attempt.bind fun r r' hr => (related_within_watched fun _ => hR.related_popFrame).bind fun f f' hf => ?_
  exact (Run.related_ofExcept hr).bind fun a b hab => Run.related_pure ⟨hab, hf.1⟩

/-- The layer freezes and defers alike, whether objects are watched or not. -/
theorem related_cacheAware_watched {tag : Inclusion} {x : SceneRun (Watched ω) (Watch ω σ) String}
    {y : SceneRun ω σ String} (hx : Run.Related Watches Eq x y) :
    Run.Related Watches Eq (cacheAware tag x) (cacheAware tag y) := by
  have hcontext : Run.Related Watches (fun c c' => c = Context.watched c')
      (Run.look Scene.context : SceneRun (Watched ω) (Watch ω σ) _) (Run.look Scene.context : SceneRun ω σ _) := by
    refine Run.related_look ?_
    rintro s _ rfl
    exact s.context.watched_unwatched.symm
  have hname : ∀ frame : Frame, frame.NamesIn fun _ => True := fun _ => ⟨trivial, fun _ _ => trivial⟩
  refine hcontext.bind fun c ctx hc => ?_
  subst hc
  have hR : Coupled ctx.watched.registers ctx.registers (fun _ => True) (World.Watches (ω := ω) (σ := σ)) :=
    coupled_watches _
  refine (related_within_watched fun _ => hR.related_registersOf).bind fun r r' hr => ?_
  subst hr
  split
  · refine (related_track_watched hx).bind fun ⟨text, frame⟩ ⟨text', frame'⟩ ⟨htext, hframe⟩ => ?_
    obtain rfl : text = text' := htext
    obtain rfl : frame = frame' := hframe
    exact related_within_watched fun _ => hR.related_settleInclusion trivial text (hname frame)
  · exact hx

variable [DataModel ω σ]

theorem related_exposed_watched (o : DataObject ω) :
    Run.Related Watches (fun o o' => o = o'.map Watched.mk) (exposed (o.map Watched.mk)) (exposed o) := by
  refine related_within_watched fun ctx => ?_
  rintro w _ rfl
  obtain ⟨hans, hend⟩ := Watched.follows_expose ctx.registers o w.toShared
  exact ⟨.ok hans, congrArg (fun s : Shared σ => ({ w.unwatched with toShared := s } : World σ)) hend⟩

theorem congruent_watches : Congruent (Watches (ω := ω) (σ := σ)) where
  limit := by rintro s _ rfl; rfl
  depth := by rintro s _ rfl; rfl
  atDepth := by rintro s _ d rfl; rfl
  read := by rintro s _ name rfl; exact ⟨rfl, rfl⟩
  report := by rintro s _ e rfl; rfl
  evaluate v := related_within_watched fun ctx => ctx.related_evaluate_watched v

end Scene

variable [DataModel ω σ] {beneath anew : ι → Inclusion → SceneRun ω σ String}
  {beneath' anew' : ι → Inclusion → SceneRun (Watched ω) (Watch ω σ) String}

/-- Plans are followed alike. -/
theorem Plan.related_follow_watched (hb : ∀ env tag, Run.Related Scene.Watches Eq (beneath' env tag) (beneath env tag))
    (ha : ∀ env tag, Run.Related Scene.Watches Eq (anew' env tag) (anew env tag)) (plan : Plan ι ω σ) :
    Run.Related Scene.Watches Eq (plan.watched.follow beneath' anew') (plan.follow beneath anew) := by
  induction plan with
  | give result =>
    cases result with
    | ok text => exact Run.related_pure rfl
    | error e => exact Run.related_fail _
  | abort a => exact Run.related_fail _
  | look next ih =>
    rintro s _ rfl
    exact ih s.unwatched s _ rfl
  | modify g next ih =>
    rintro s _ rfl
    exact ih _ _ (Scene.unwatched_watched _ _)
  | expose o next ih =>
    refine (Scene.related_exposed_watched o).bind fun o o' ho => ?_
    have ho' : o.map Watched.object = o' := by rw [ho, DataObject.map_object_map_mk]
    exact ho' ▸ ih _
  | get key v next ih =>
    refine (Scene.related_shared_watched (v.related_get_watched key)).catchError.bind fun r r' hr => ?_
    exact hr.map_unwatched ▸ ih _
  | render v next ih =>
    exact (Scene.related_shared_watched v.related_render_watched).catchError.bind fun r r' hr => hr.eq ▸ ih r
  | ask env tag next ih => exact (hb env tag).catchError.bind fun r r' hr => hr.eq ▸ ih r
  | call env tag next ih => exact (ha env tag).catchError.bind fun r r' hr => hr.eq ▸ ih r

namespace Environments

theorem related_through_watched (ha : ∀ env tag, Run.Related Scene.Watches Eq (anew' env tag) (anew env tag))
    (chain : List (Strategy ι ω σ)) (env : ι) (tag : Inclusion) :
    Run.Related Scene.Watches Eq (through anew' (chain.map Strategy.watched) env tag) (through anew chain env tag) := by
  induction chain generalizing env tag with
  | nil => exact Scene.congruent_watches.related_native (ha env) tag.key
  | cons strategy chain ih =>
    cases strategy with
    | cacheAware => exact Scene.related_cacheAware_watched (ih env tag)
    | planned plan => exact (plan env tag).related_follow_watched ih ha

theorem related_expand_watched (E : Environments ι ω σ) (nesting : Nat) (env : ι) (tag : Inclusion) :
    Run.Related Scene.Watches Eq (E.watched.expand nesting env tag) (E.expand nesting env tag) := by
  induction nesting generalizing env tag with
  | zero => exact Run.related_fail _
  | succ nesting ih => exact related_through_watched ih (E.chain env) env tag

/-- A render through strategies goes on as if the objects were not watched. -/
theorem render_watched (E : Environments ι ω σ) (nesting : Nat) (env : ι) (t : Template)
    (s : Scene (Watched ω) (Watch ω σ)) :
    ((E.watched.render nesting env t).run s).1 = ((E.render nesting env t).run s.unwatched).1 ∧
      ((E.watched.render nesting env t).run s).2.unwatched = ((E.render nesting env t).run s.unwatched).2 := by
  have hstart : Scene.Watches (renderStart s) (renderStart s.unwatched) := rfl
  obtain ⟨hans, hend⟩ := Scene.congruent_watches.related_render (E.related_expand_watched nesting env) t hstart
  exact ⟨hans.eq, hend⟩

end Environments

end

end HybridTemplate
