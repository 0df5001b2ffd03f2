import HybridTemplate.Proofs.Steady
import HybridTemplate.Proofs.WatchedScenes

/-!
# Cache-aware layers in plain mode

As long as the registers are out of caching mode, the cache-aware layer hands an inclusion to the layers beneath it. So
in plain mode environments do just what they do without their cache-aware layers, wherever these are and whatever the
other strategies are like.

* `Registers.StaysIn` — a bound for objects: what holds of the registers before holds afterwards;
* `Environments.withoutCaching` — environments of which some have lost their cache-aware layers;
* `Plan.Keeps` — what a strategy keeps up whatever it is told: it holds whenever another strategy takes over, and at the
  end. `Scene.Holds` — that is something about the registers, and the objects keep it up as well;
* `related_through_withoutCaching` — the step, from a scene to itself;
* `Environments.render_withoutCaching` — the render as a whole. Neither strategies nor objects may switch caching mode
  on, since the mode is looked at when each inclusion begins (`Sample.render_switched`).
-/

namespace HybridTemplate

open Registers (Handle)
open World

/-! ## Registers in plain mode -/

namespace Registers

/-- What holds of the registers before holds of them afterwards. -/
def StaysIn (P : Registers → Prop) (r r' : Registers) : Prop :=
  P r → P r'

/-- The registers are out of caching mode. -/
def Plain (r : Registers) : Prop :=
  r.caching = false

/-- The registers are out of caching mode, and have neither frames nor artifacts. -/
structure Unused (r : Registers) : Prop where
  plain : r.Plain
  frames : r.stack.frames = []
  store : r.store = none

theorem plain_markUncacheable (r : Registers) (h : r.Plain) : r.markUncacheable.Plain :=
  h

theorem unused_markUncacheable (r : Registers) (h : r.Unused) : r.markUncacheable.Unused := by
  obtain ⟨hplain, hframes, hstore⟩ := h
  refine ⟨hplain, ?_, hstore⟩
  have hnames := r.stack.map_name_mark
  rw [hframes] at hnames
  exact List.map_eq_nil_iff.mp hnames

/-- A render in plain mode starts from unused registers. -/
theorem unused_reset {r : Registers} (h : r.Plain) : r.reset.Unused :=
  ⟨h, rfl, rfl⟩

end Registers

theorem bound_staysIn {P : Registers → Prop} (hm : ∀ r, P r → P r.markUncacheable) :
    Bound (Registers.StaysIn P) where
  refl _ h := h
  trans h₁ h₂ h := h₂ (h₁ h)
  mark r h := hm r h

/-- The registers of the render. -/
def Scene.ownRegisters {ω σ : Type} (s : Scene ω σ) : Registers :=
  s.registers.get s.context.registers

/-! ## Environments without cache-aware layers -/

section

variable {ι ω σ : Type}

/-- Whether the strategy has plans of its own. -/
def Strategy.isPlanned : Strategy ι ω σ → Bool
  | cacheAware => false
  | planned _ => true

/-- The environments, of which the chosen ones are without their cache-aware layers. -/
def Environments.withoutCaching (E : Environments ι ω σ) (chosen : ι → Bool) : Environments ι ω σ :=
  ⟨fun env => (E.chain env).filter fun strategy => strategy.isPlanned || !chosen env⟩

theorem Environments.withoutCaching_watched (E : Environments ι ω σ) (chosen : ι → Bool) :
    E.watched.withoutCaching chosen = (E.withoutCaching chosen).watched := by
  have hplanned : ∀ strategy : Strategy ι ω σ, strategy.watched.isPlanned = strategy.isPlanned := by
    rintro (_ | plan) <;> rfl
  simp only [withoutCaching, watched, List.filter_map, Function.comp_def, hplanned]

end

/-! ## What strategies keep up -/

/-- An answer of the run is in `Q` with the state that it leaves, and the state that a failure leaves is in `P`. -/
def Run.After {s ε α : Type} (Q : α → s → Prop) (P : s → Prop) (x : Run s ε α) (w : s) : Prop :=
  match x.run w with
  | (.ok a, w) => Q a w
  | (.error _, w) => P w

section

variable {ι ω σ : Type} [DataModel ω σ] {P : Scene ω σ → Prop}

/-- What a plan keeps up from a scene on, whatever it is told: the scene is in `P` whenever other strategies take over,
and at the end. They may leave any scene in `P` behind. -/
def Plan.Keeps (P : Scene ω σ → Prop) : Plan ι ω σ → Scene ω σ → Prop
  | give _, s => P s
  | abort _, s => P s
  | look next, s => (next s).Keeps P s
  | modify g next, s => next.Keeps P (g s)
  | expose o next, s => (Scene.exposed o).After (fun o s => (next o).Keeps P s) P s
  | get key v next, s =>
    (Scene.shared (v.get key)).catchError.After (ε := RenderError) (fun answer s => (next answer).Keeps P s) P s
  | render v next, s =>
    (Scene.shared v.render).catchError.After (ε := RenderError) (fun answer s => (next answer).Keeps P s) P s
  | ask _ _ next, s => P s ∧ ∀ answer s', P s' → (next answer).Keeps P s'
  | call _ _ next, s => P s ∧ ∀ answer s', P s' → (next answer).Keeps P s'

/-- The strategies keep `P` up, whatever they are asked about and whichever environment they are called from. -/
def Environments.Keeps (P : Scene ω σ → Prop) (E : Environments ι ω σ) : Prop :=
  ∀ env plan, .planned plan ∈ E.chain env → ∀ env' tag s, P s → (plan env' tag).Keeps P s

namespace Scene

/-- A property of scenes that is kept up when names are read, events are reported, inclusions go deeper and variables
are evaluated. -/
structure Steady (P : Scene ω σ → Prop) : Prop where
  atDepth : ∀ {s} (d : Nat), P s → P { s with includeDepth := d }
  read : ∀ {s} (name : String), P s → P { s with source := (s.source.read name).2 }
  report : ∀ {s} (e : Event), P s → P { s with toShared := s.toShared.report e }
  evaluate : ∀ {s} (v : Variable), P s → P ((within fun ctx => lift (ctx.evaluate v)).run s).2

/-- The scenes are one and the same, which is in `P`. -/
def Same (P : Scene ω σ → Prop) (s s' : Scene ω σ) : Prop :=
  s = s' ∧ P s

theorem congruent_same (hP : Steady P) : Congruent (Same P) where
  limit := by
    rintro s _ ⟨rfl, -⟩
    rfl
  depth := by
    rintro s _ ⟨rfl, -⟩
    rfl
  atDepth := by
    rintro s _ d ⟨rfl, hs⟩
    exact ⟨rfl, hP.atDepth d hs⟩
  read := by
    rintro s _ name ⟨rfl, hs⟩
    exact ⟨rfl, rfl, hP.read name hs⟩
  report := by
    rintro s _ e ⟨rfl, hs⟩
    exact ⟨rfl, hP.report e hs⟩
  evaluate v := by
    rintro s _ ⟨rfl, hs⟩
    exact ⟨.of_eq (fun _ => rfl) rfl, rfl, hP.evaluate v hs⟩

end Scene

/-! ## One scene on both sides -/

variable {beneath beneath' anew anew' : ι → Inclusion → SceneRun ω σ String}

omit [DataModel ω σ] in
/-- What a strategy does itself is the same on both sides. -/
theorem Plan.after_same {α : Type} {x : SceneRun ω σ α} {f f' : α → SceneRun ω σ String} {Q : α → Scene ω σ → Prop}
    {s : Scene ω σ} (hs : x.After Q P s)
    (hf : ∀ a s, Q a s → EndsAlike Eq ((f a).run s).1 ((f' a).run s).1 ∧
      Scene.Same P ((f a).run s).2 ((f' a).run s).2) :
    EndsAlike Eq ((x >>= f).run s).1 ((x >>= f').run s).1 ∧
      Scene.Same P ((x >>= f).run s).2 ((x >>= f').run s).2 := by
  unfold Run.After at hs
  rcases hr : x.run s with ⟨e | a, s₁⟩
  · rw [hr] at hs
    rw [Run.bind_run_of_error hr, Run.bind_run_of_error hr]
    exact ⟨.error e, rfl, hs⟩
  · rw [hr] at hs
    rw [Run.bind_run_of_ok hr, Run.bind_run_of_ok hr]
    exact hf a s₁ hs

/-- A plan that keeps `P` up is followed alike if what it asks ends alike from scenes in `P`. -/
theorem Plan.follow_same (hb : ∀ env tag, Run.Related (Scene.Same P) Eq (beneath env tag) (beneath' env tag))
    (ha : ∀ env tag, Run.Related (Scene.Same P) Eq (anew env tag) (anew' env tag)) (plan : Plan ι ω σ) {s : Scene ω σ}
    (hs : plan.Keeps P s) :
    EndsAlike Eq ((plan.follow beneath anew).run s).1 ((plan.follow beneath' anew').run s).1 ∧
      Scene.Same P ((plan.follow beneath anew).run s).2 ((plan.follow beneath' anew').run s).2 := by
  induction plan generalizing s with
  | give result =>
    cases result with
    | ok text => exact ⟨.ok rfl, rfl, hs⟩
    | error e => exact ⟨.error _, rfl, hs⟩
  | abort a => exact ⟨.error _, rfl, hs⟩
  | look next ih => exact ih s hs
  | modify g next ih => exact ih hs
  | expose o next ih => exact after_same hs fun o _ => ih o
  | get key v next ih => exact after_same hs fun answer _ => ih answer
  | render v next ih => exact after_same hs fun answer _ => ih answer
  | ask env tag next ih =>
    refine Run.bind_endsAlike ((hb env tag).catchError s s ⟨rfl, hs.1⟩) ?_
    rintro answer answer' s₁ _ hanswer ⟨rfl, hs₁⟩
    exact hanswer.eq ▸ ih answer (hs.2 answer s₁ hs₁)
  | call env tag next ih =>
    refine Run.bind_endsAlike ((ha env tag).catchError s s ⟨rfl, hs.1⟩) ?_
    rintro answer answer' s₁ _ hanswer ⟨rfl, hs₁⟩
    exact hanswer.eq ▸ ih answer (hs.2 answer s₁ hs₁)

omit [DataModel ω σ] in
/-- In plain mode the cache-aware layer may as well be on one side only. -/
theorem Scene.related_cacheAware_left (hplain : ∀ s, P s → s.ownRegisters.Plain)
    {tag : Inclusion} {x y : SceneRun ω σ String} (hx : Run.Related (Scene.Same P) Eq x y) :
    Run.Related (Scene.Same P) Eq (cacheAware tag x) y := by
  intro s s' hs
  rw [cacheAware_run_of_plain (hplain s hs.2)]
  exact hx s s' hs

namespace Environments

/-- In plain mode an inclusion goes through strategies as it goes through those that are left of them. -/
theorem related_through_withoutCaching (hP : Scene.Steady P)
    (hplain : ∀ s, P s → s.ownRegisters.Plain)
    (ha : ∀ env tag, Run.Related (Scene.Same P) Eq (anew env tag) (anew' env tag)) (chosen : Bool)
    {chain : List (Strategy ι ω σ)}
    (hc : ∀ plan, .planned plan ∈ chain → ∀ env tag s, P s → (plan env tag).Keeps P s) (env : ι) (tag : Inclusion) :
    Run.Related (Scene.Same P) Eq (through anew chain env tag)
      (through anew' (chain.filter fun strategy => strategy.isPlanned || !chosen) env tag) := by
  induction chain generalizing env tag with
  | nil => exact (Scene.congruent_same hP).related_native (ha env) tag.key
  | cons strategy chain ih =>
    have hrest := ih fun plan hm => hc plan (List.mem_cons_of_mem _ hm)
    cases strategy with
    | planned plan =>
      rintro s _ ⟨rfl, hs⟩
      exact Plan.follow_same hrest ha (plan env tag) (hc plan List.mem_cons_self env tag s hs)
    | cacheAware =>
      cases chosen with
      | true => exact Scene.related_cacheAware_left hplain (hrest env tag)
      | false =>
        rintro s _ ⟨rfl, hs⟩
        rw [List.filter_cons_of_pos rfl, through, through, Scene.cacheAware_run_of_plain (hplain s hs),
          Scene.cacheAware_run_of_plain (hplain s hs)]
        exact hrest env tag s s ⟨rfl, hs⟩

theorem related_expand_withoutCaching (hP : Scene.Steady P)
    (hplain : ∀ s, P s → s.ownRegisters.Plain) {E : Environments ι ω σ} (hE : E.Keeps P)
    (chosen : ι → Bool) (nesting : Nat) (env : ι) (tag : Inclusion) :
    Run.Related (Scene.Same P) Eq (E.expand nesting env tag) ((E.withoutCaching chosen).expand nesting env tag) := by
  induction nesting generalizing env tag with
  | zero => exact Run.related_fail _
  | succ nesting ih => exact related_through_withoutCaching hP hplain ih (chosen env) (hE env) env tag

/-- In plain mode a render goes on as without the cache-aware layers, and what the strategies keep up holds at its
end. -/
theorem render_same (hP : Scene.Steady P) (hplain : ∀ s, P s → s.ownRegisters.Plain)
    {E : Environments ι ω σ} (hE : E.Keeps P) (chosen : ι → Bool) (nesting : Nat) (env : ι) (t : Template)
    {s : Scene ω σ} (hs : P (renderStart s)) :
    (E.render nesting env t).run s = ((E.withoutCaching chosen).render nesting env t).run s ∧
      P ((E.render nesting env t).run s).2 := by
  obtain ⟨hans, hstate, hend⟩ := (Scene.congruent_same hP).related_render
    (related_expand_withoutCaching hP hplain hE chosen nesting env) t ⟨rfl, hs⟩
  exact ⟨Prod.ext hans.eq hstate, hend⟩

end Environments

/-! ## Strategies among watched objects -/

namespace Scene

/-- What is kept up of a scene is kept up when its objects are watched. -/
theorem Steady.unwatched (hP : Steady P) : Steady fun s : Scene (Watched ω) (Watch ω σ) => P s.unwatched where
  atDepth d hs := hP.atDepth d hs
  read name hs := hP.read name hs
  report e hs := hP.report e hs
  evaluate {s} v hs := by
    obtain ⟨-, hend⟩ := congruent_watches.evaluate v s _ rfl
    rw [hend]
    exact hP.evaluate v hs

end Scene

omit [DataModel ω σ] in
/-- A run over watched objects is followed by what the run over the objects themselves is followed by. -/
theorem Run.Related.after {α β : Type} {q : α → β → Prop} {x : SceneRun (Watched ω) (Watch ω σ) α} {y : SceneRun ω σ β}
    (hx : Run.Related Scene.Watches q x y) {Q : β → Scene ω σ → Prop} {s : Scene (Watched ω) (Watch ω σ)}
    {Q' : α → Scene (Watched ω) (Watch ω σ) → Prop} (hy : y.After Q P s.unwatched)
    (hQ : ∀ a b s, q a b → Q b s.unwatched → Q' a s) : x.After Q' (fun s => P s.unwatched) s := by
  obtain ⟨hans, hend⟩ := hx s _ rfl
  unfold Run.After at hy ⊢
  rcases hr : x.run s with ⟨r, s₁⟩
  rcases hr' : y.run s.unwatched with ⟨r', s₂⟩
  rw [hr, hr'] at hans hend
  rw [hr'] at hy
  obtain rfl : s₁.unwatched = s₂ := hend
  cases hans with
  | ok hab => exact hQ _ _ s₁ hab hy
  | error e => exact hy

/-- What a plan keeps up it keeps up among watched objects. -/
theorem Plan.Keeps.watched {plan : Plan ι ω σ} {s : Scene (Watched ω) (Watch ω σ)} (h : plan.Keeps P s.unwatched) :
    plan.watched.Keeps (fun s => P s.unwatched) s := by
  induction plan generalizing s with
  | give result => exact h
  | abort a => exact h
  | look next ih => exact ih s.unwatched h
  | modify g next ih =>
    refine ih ?_
    rw [Scene.unwatched_watched]
    exact h
  | expose o next ih =>
    refine (Scene.related_exposed_watched o).after h fun o o' s ho hs => ih _ ?_
    rw [ho, DataObject.map_object_map_mk]
    exact hs
  | get key v next ih =>
    refine (Scene.related_shared_watched (v.related_get_watched key)).catchError.after h fun r r' s hr hs => ih _ ?_
    rw [hr.map_unwatched]
    exact hs
  | render v next ih =>
    refine (Scene.related_shared_watched v.related_render_watched).catchError.after h fun r r' s hr hs => ih _ ?_
    rw [hr.eq]
    exact hs
  | ask env tag next ih => exact ⟨h.1, fun answer s' hs' => ih answer (h.2 answer _ hs')⟩
  | call env tag next ih => exact ⟨h.1, fun answer s' hs' => ih answer (h.2 answer _ hs')⟩

theorem Environments.Keeps.watched {E : Environments ι ω σ} (hE : E.Keeps P) :
    E.watched.Keeps fun s => P s.unwatched := by
  intro env plan hm env' tag s hs
  obtain ⟨strategy, hstrategy, heq⟩ := List.mem_map.mp hm
  cases strategy with
  | cacheAware => cases heq
  | planned plan' =>
    cases heq
    exact (hE env plan' hstrategy env' tag s.unwatched hs).watched

/-! ## Renders in plain mode -/

/-- The property holds of the registers of the render, and all objects in scope keep it up. -/
structure Scene.Holds (Q : Registers → Prop) (s : Scene ω σ) : Prop where
  registers : Q s.ownRegisters
  confined : s.context.Confined (Registers.StaysIn Q)

theorem Scene.steady_holds {Q : Registers → Prop} (hm : ∀ r, Q r → Q r.markUncacheable) :
    Steady (Holds (ω := ω) (σ := σ) Q) where
  atDepth _ hs := ⟨hs.registers, hs.confined⟩
  read _ hs := ⟨hs.registers, hs.confined⟩
  report _ hs := ⟨hs.registers, hs.confined⟩
  evaluate {s} v hs := ⟨hs.confined.within (bound_staysIn hm) v s.toShared hs.registers, hs.confined⟩

theorem Scene.holds_renderStart {Q : Registers → Prop} {s : Scene ω σ}
    (hs : Q s.ownRegisters.reset) (hc : s.context.Confined (Registers.StaysIn Q)) :
    (Environments.renderStart s).Holds Q := by
  refine ⟨?_, hc⟩
  show Q ((Environment.renderStart s.context s.toWorld).registers.get s.context.registers)
  rw [Environment.get_renderStart]
  exact hs

namespace Environments

/-- In plain mode a render through strategies of any kind is the render without the cache-aware layers of any
environments: it gives the same result, makes the same calls to objects, and leaves the same state, in which are the
names read from the source. Where there are never any frames and artifacts of others, it leaves the registers unused. -/
theorem render_withoutCaching (E : Environments ι ω σ) (chosen : ι → Bool) (hE : E.Keeps (Scene.Holds Registers.Plain))
    {s : Scene ω σ} (hs : s.Holds Registers.Plain) (nesting : Nat) (env : ι) (t : Template) :
    (E.render nesting env t).run s = ((E.withoutCaching chosen).render nesting env t).run s ∧
      E.calls nesting env t s = (E.withoutCaching chosen).calls nesting env t s ∧
      (E.Keeps (Scene.Holds Registers.Unused) → s.context.Confined (Registers.StaysIn Registers.Unused) →
        ((E.render nesting env t).run s).2.ownRegisters.Unused) := by
  have hsteady := Scene.steady_holds (ω := ω) (σ := σ) Registers.plain_markUncacheable
  have hstart : (renderStart s).Holds Registers.Plain := Scene.holds_renderStart hs.registers hs.confined
  have hunwatched : (renderStart (s.watched [])).unwatched = renderStart s :=
    congrArg renderStart (s.unwatched_watched [])
  obtain ⟨hrun, -⟩ := render_same hsteady (fun _ h => h.registers) hE chosen nesting env t hstart
  obtain ⟨hcalls, -⟩ := render_same hsteady.unwatched (fun _ h => h.registers) hE.watched chosen nesting env t
    (hunwatched ▸ hstart)
  rw [withoutCaching_watched] at hcalls
  refine ⟨hrun, congrArg (·.2.objects.calls) hcalls, fun hkeeps hc => ?_⟩
  exact (render_same (Scene.steady_holds Registers.unused_markUncacheable) (fun _ h => h.registers.plain) hkeeps chosen
    nesting env t (Scene.holds_renderStart (Registers.unused_reset hs.registers) hc)).2.registers

end Environments

end

/-! ## Renders through layers -/

section

variable {ω σ : Type} [DataModel ω σ]

/-- Whether the layer is one of one's own. -/
def Layer.isCustom : Layer → Bool
  | cacheAware => false
  | custom _ => true

theorem Reply.keeps_plan {P : Scene ω σ → Prop} (env : Unit) (tag : Inclusion) (reply : Reply) {s : Scene ω σ}
    (hs : P s) : (reply.plan env tag).Keeps P s := by
  induction reply generalizing s with
  | give result => exact hs
  | ask next ih => exact ⟨hs, fun answer s' hs' => ih answer hs'⟩

namespace Environment

/-- Layers leave the state alone. -/
theorem keeps_alone (P : Scene ω σ → Prop) (env : Environment) : env.alone.Keeps P := by
  intro _ plan hm env' tag s hs
  obtain ⟨layer, -, heq⟩ := List.mem_map.mp hm
  cases layer with
  | cacheAware => cases heq
  | custom reply =>
    cases heq
    exact (reply tag).keeps_plan env' tag hs

omit [DataModel ω σ] in
theorem withoutCaching_alone (env : Environment) :
    env.alone.withoutCaching (fun _ => true) =
      ((⟨env.layers.filter Layer.isCustom⟩ : Environment).alone : Environments Unit ω σ) := by
  have hplanned : ∀ layer : Layer, (layer.strategy : Strategy Unit ω σ).isPlanned = layer.isCustom := by
    rintro (_ | reply) <;> rfl
  simp only [Environments.withoutCaching, alone, List.filter_map, Function.comp_def, hplanned, Bool.not_true,
    Bool.or_false]

/-- In plain mode a render through layers is the render through those of one's own. -/
theorem render_filter_isCustom (env : Environment) {ctx : Context ω}
    (hc : ctx.Confined (Registers.StaysIn Registers.Plain)) {w : World σ}
    (hw : (w.registers.get ctx.registers).caching = false) (t : Template) :
    (env.render ctx t).run w = ((⟨env.layers.filter Layer.isCustom⟩ : Environment).render ctx t).run w := by
  have hlevels : ctx.includeLimit - w.includeDepth < ctx.includeLimit + 1 := by omega
  have hsame := (Environments.render_same (Scene.steady_holds (ω := ω) (σ := σ) Registers.plain_markUncacheable)
    (fun _ h => h.registers) (env.keeps_alone _) (fun _ => true) (ctx.includeLimit + 1) () t
    (s := { w with context := ctx }) (Scene.holds_renderStart hw hc)).1
  rw [withoutCaching_alone, render_alone env ctx t w hlevels, render_alone _ ctx t w hlevels] at hsame
  obtain ⟨hans, hend⟩ := Prod.mk.inj hsame
  exact Prod.ext hans (congrArg Scene.toWorld hend)

end Environment

end

namespace Sample

/-- The scene in which the page is rendered. -/
def scene (ctx : Context Scripted) : Scene Scripted Heap :=
  { world with context := ctx }

/-- Brings the name of the template into scope, asks for its text, and puts the text that another environment gives for
the foot behind it. -/
def sign (env : Bool) (tag : Inclusion) : Plan Bool Scripted Heap :=
  .modify (fun s => { s with context := s.context.assign "title" (.json (.string tag.key)) }) <|
  .ask env tag fun
    | .ok text => .call false ⟨" ", '\'', "foot"⟩ fun foot => .give (foot.map (text ++ ·))
    | .error e => .give (.error e)

/-- Two environments, the first of which signs what it includes, with a cache-aware layer on either side. -/
def signing : Environments Bool Scripted Heap :=
  ⟨fun
    | true => [.cacheAware, .planned sign, .cacheAware]
    | false => [.cacheAware]⟩

theorem keeps_signing (Q : Registers → Prop) : signing.Keeps (Scene.Holds Q) := by
  rintro (_ | _) plan hm env tag s hs
  · cases List.mem_singleton.mp hm
  · obtain rfl : plan = sign := by simpa [signing] using hm
    have hassigned : Scene.Holds Q { s with context := s.context.assign "title" (.json (.string tag.key)) } := by
      obtain ⟨hregisters, held, hheld, hin⟩ := hs
      refine ⟨hregisters, held, hheld, fun key => ?_⟩
      rw [Context.lookup_assign]
      split
      · rintro o ⟨⟩
      · exact hin key
    refine ⟨hassigned, fun answer s₁ hs₁ => ?_⟩
    cases answer with
    | error e => exact hs₁
    | ok text => exact ⟨hs₁, fun foot s₂ hs₂ => hs₂⟩

/-- The page of the sample site, each inclusion of which is signed. -/
theorem render_withoutCaching_page :
    (signing.render 9 true page).run (scene (context "Ann")) =
        ((signing.withoutCaching fun _ => true).render 9 true page).run (scene (context "Ann")) ∧
      ((signing.render 9 true page).run (scene (context "Ann"))).1 = .ok "Home: Hi Ann!!!!!" ∧
      (signing.calls 9 true page (scene (context "Ann"))).length = 1 ∧
      ((signing.render 9 true page).run (scene (context "Ann"))).2.ownRegisters.Unused := by
  have hpure := (pure_context "Ann").1
  have hs : (scene (context "Ann")).Holds Registers.Plain :=
    ⟨rfl, hpure.confined (bound_staysIn Registers.plain_markUncacheable)⟩
  obtain ⟨hrun, -, hunused⟩ := Environments.render_withoutCaching signing (fun _ => true) (keeps_signing _) hs 9 true
    page
  refine ⟨hrun, by cbv, by cbv, ?_⟩
  exact hunused (keeps_signing _) (hpure.confined (bound_staysIn Registers.unused_markUncacheable))

/-- An object that switches caching mode on. -/
def switch : DataObject Scripted :=
  .bare {
    script := .mk "switch" [("on", .mk [.cachingOn] (.json (.string "")))] none none 0 none false
    cell := 0
    registers := some ⟨0⟩ }

/-- The sample context with the switch. -/
def switching : Context Scripted :=
  (context "Ann").assign "switch" (.object switch)

/-- A page that shows the switch and then a row. -/
def switchedPage : Template :=
  ⟨[.output ⟨"switch", ["on"]⟩, .inclusion ⟨" ", '\'', "row"⟩]⟩

/-- A layer that changes the registers before it asks about the tag. -/
def interfering (g : Registers → Registers) : Environments Unit Scripted Heap :=
  ⟨fun _ =>
    [.planned fun env tag =>
      .modify (fun s => { s with toShared := s.toShared.modifyRegisters s.context.registers g }) <|
      .ask env tag .give,
    .cacheAware]⟩

/-- An object or a strategy that switches caching mode on can tell the environments apart: the row is deferred in the
one and rendered in the other. A strategy that puts a frame on the stack leaves it there. -/
theorem render_switched :
    let cached : Environments Unit Scripted Heap := Environment.cached.alone
    let on := interfering (·.setCaching true)
    let framed := interfering (·.mapStack (·.push "mine"))
    (world.registers.get switching.registers).caching = false ∧
      ((cached.render 9 () switchedPage).run (scene switching)).1 = .ok "\x7b% include 'row' %\x7d" ∧
      (((cached.withoutCaching fun _ => true).render 9 () switchedPage).run (scene switching)).1 = .ok "Hi Ann!" ∧
      ((on.render 9 () switchedPage).run (scene (context "Ann"))).1 = .ok "\x7b% include 'row' %\x7d" ∧
      (((on.withoutCaching fun _ => true).render 9 () switchedPage).run (scene (context "Ann"))).1 = .ok "Hi Ann!" ∧
      ((framed.render 9 () page).run (scene (context "Ann"))).2.ownRegisters.depth ≠ 0 := by
  refine ⟨rfl, ?_, ?_, ?_, ?_, ?_⟩
  all_goals cbv

end Sample

end HybridTemplate
