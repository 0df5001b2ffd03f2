import HybridTemplate.Proofs.Chronicle

/-!
# The course of a render

A render goes from node to node, and from an inclusion to the nodes of the included template. A `Course` follows it
through all states in which it comes to a node or to the source of a template, and notes which inclusions are in
progress there. Its rules say nothing of levels: that there is a course for every run says that the render ends without
being cut off.

* `Enters`, `Misses` — whether the native strategy gets as far as to the nodes of the template;
* `Environment.Closes` — what the layers make of the way in which the native strategy ended. They ask it once, in the
  state `Environment.opened`, if there is no layer of one's own among them (`Environment.Direct`);
* `Closed` — what closing an inclusion keeps, and which failures it can bring in;
* `Course` — the course of nodes, by induction on how they are rendered. Every run has one (`exists_course`), which ends
  as the run does (`Course.run`).
-/

namespace HybridTemplate

open World

variable {ω σ : Type}

/-! ## Asking the native strategy -/

namespace Environment

/-- The native strategy, asked in `w`, gets as far as to render the nodes of `t`, from `w₁` on. -/
structure Enters (ctx : Context ω) (tag : Inclusion) (w : World σ) (t : Template) (w₁ : World σ) : Prop where
  limit : w.includeDepth < ctx.includeLimit
  template : ∃ source, (readTemplate tag.key).run w.deeper = (.ok source, w₁) ∧ Template.parse source = .ok t

/-- The native strategy, asked in `w`, fails ahead of any node with `f` and leaves `u`. It has read the source at most;
`read` tells whether it has. -/
inductive Misses (ctx : Context ω) (tag : Inclusion) (w : World σ) :
    (read : Bool) → Failure RenderError → World σ → Prop
  | tooDeep (hlimit : ctx.includeLimit ≤ w.includeDepth) :
      Misses ctx tag w false (.error (.nestingTooDeep w.includeDepth)) w
  | unread {e : SourceError} {u : World σ} (hlimit : w.includeDepth < ctx.includeLimit)
      (hr : (readTemplate tag.key).run w.deeper = (.error (.error (.source e)), u)) :
      Misses ctx tag w true (.error (.source e)) u.shallower
  | faulty {source : String} {e : ParseError} {u : World σ} (hlimit : w.includeDepth < ctx.includeLimit)
      (hr : (readTemplate tag.key).run w.deeper = (.ok source, u)) (hp : Template.parse source = .error e) :
      Misses ctx tag w true (.error (.parse e)) u.shallower

section

variable {ctx : Context ω} {tag : Inclusion} {w w₁ u : World σ} {t : Template} {read : Bool} {f : Failure RenderError}

theorem Enters.state (h : Enters ctx tag w t w₁) : w₁ = { w.deeper with source := (w.source.read tag.key).2 } := by
  obtain ⟨-, source, hr, -⟩ := h
  have hstate := (readTemplate_cases tag.key w.deeper).1
  rwa [hr] at hstate

theorem Enters.holds {C : Catalog} (h : Enters ctx tag w t w₁) (hs : w.source.Serves C) : C.Holds tag.key t := by
  obtain ⟨-, source, hr, hparse⟩ := h
  have hanswer := (readTemplate_cases tag.key w.deeper).2 source (congrArg Prod.fst hr)
  exact ⟨source, (hs _ _).symm.trans hanswer, hparse⟩

/-- Reading the source is all that a native strategy has done that fails ahead of any node. -/
theorem Misses.state (h : Misses ctx tag w read f u) :
    ∃ s : Source, u = { w with source := s } ∧ s.answer = w.source.answer := by
  have hread : ∀ {r : Rendered} {v : World σ}, (readTemplate tag.key).run w.deeper = (r, v) →
      ∃ s : Source, v.shallower = { w with source := s } ∧ s.answer = w.source.answer := by
    intro r v hr
    have hstate := (readTemplate_cases tag.key w.deeper).1
    rw [hr] at hstate
    subst hstate
    exact ⟨_, rfl, rfl⟩
  cases h with
  | tooDeep => exact ⟨w.source, rfl, rfl⟩
  | unread _ hr => exact hread hr
  | faulty _ hr _ => exact hread hr

/-- The native strategy gets as far as to the nodes of a template, or it fails ahead of them. -/
theorem enters_or_misses (ctx : Context ω) (tag : Inclusion) (w : World σ) :
    (∃ t w₁, Enters ctx tag w t w₁) ∨ ∃ read f u, Misses ctx tag w read f u := by
  by_cases hlimit : ctx.includeLimit ≤ w.includeDepth
  · exact .inr ⟨_, _, _, .tooDeep hlimit⟩
  · have hlimit := Nat.lt_of_not_le hlimit
    have hread := readTemplate_run w.deeper tag.key
    split at hread
    · rename_i source _
      rcases hparse : Template.parse source with e | t
      · exact .inr ⟨_, _, _, .faulty hlimit hread hparse⟩
      · exact .inl ⟨t, _, hlimit, source, hread, hparse⟩
    · exact .inr ⟨_, _, _, .unread hlimit hread⟩

variable [DataModel ω σ]

/-- What the native strategy does where `levels` more inclusions are allowed inside one another. -/
def ask (env : Environment) (ctx : Context ω) : Nat → Inclusion → RenderRun σ String
  | 0, _ => do .raise (.nestingTooDeep (← Run.look World.includeDepth))
  | levels + 1, tag => nested id ctx.includeLimit (renderTemplate ctx (env.expandWithin ctx levels) tag.key)

theorem expandWithin_eq_runLayers (env : Environment) (ctx : Context ω) (levels : Nat) (tag : Inclusion) :
    env.expandWithin ctx levels tag = runLayers (σ := σ) ctx tag (env.ask ctx levels tag) env.layers := by
  cases levels with
  | zero => rw [expandWithin]; rfl
  | succ levels => rw [expandWithin]; rfl

/-- The native strategy ends as the nodes do that it gets to, one inclusion less deep. -/
theorem Enters.run (h : Enters ctx tag w t w₁) (env : Environment) :
    (env.ask ctx (ctx.includeLimit - w.includeDepth) tag).run w =
      (((renderWith ctx (env.expandWithin ctx (ctx.includeLimit - w₁.includeDepth)) t.nodes).run w₁).1,
        ((renderWith ctx (env.expandWithin ctx (ctx.includeLimit - w₁.includeDepth)) t.nodes).run w₁).2.shallower) := by
  have hdepth : w₁.includeDepth = w.includeDepth + 1 := congrArg World.includeDepth h.state
  obtain ⟨hlimit, source, hread, hparse⟩ := h
  have hlevels : ctx.includeLimit - w.includeDepth = ctx.includeLimit - w₁.includeDepth + 1 := by omega
  rw [hlevels, ask, nested_run, if_neg (Nat.not_le.mpr hlimit), renderTemplate, Run.bind_run_of_ok hread]
  simp only [hparse]

theorem Misses.run (h : Misses ctx tag w read f u) (env : Environment) :
    (env.ask ctx (ctx.includeLimit - w.includeDepth) tag).run w = (.error f, u) := by
  have hlevels : w.includeDepth < ctx.includeLimit →
      ctx.includeLimit - w.includeDepth = ctx.includeLimit - w.includeDepth - 1 + 1 := by omega
  cases h with
  | tooDeep hlimit =>
    rw [Nat.sub_eq_zero_of_le hlimit]
    rfl
  | unread hlimit hr =>
    rw [hlevels hlimit, ask, nested_run, if_neg (Nat.not_le.mpr hlimit), renderTemplate, Run.bind_run_of_error hr]
  | faulty hlimit hr hp =>
    rw [hlevels hlimit, ask, nested_run, if_neg (Nat.not_le.mpr hlimit), renderTemplate, Run.bind_run_of_ok hr]
    simp only [hp]
    rfl

end

end Environment

/-! ## Through the layers -/

/-- The run that ends in this way from every state. -/
def Run.ended {s ε α : Type} (r : Except (Failure ε) α) (u : s) : Run s ε α :=
  fun _ => (r, u)

namespace Environment

/-- There is no layer of one's own. -/
def Direct (env : Environment) : Prop :=
  ∀ layer ∈ env.layers, layer = .cacheAware

theorem direct_native : native.Direct :=
  List.forall_mem_nil _

theorem direct_cached : cached.Direct :=
  fun _ h => List.mem_singleton.mp h

/-- The state in which the native strategy is asked: every layer has begun. -/
def opened (env : Environment) (ctx : Context ω) (tag : Inclusion) (w : World σ) : World σ :=
  env.layers.foldl (fun w _ => bodyStart ctx tag w) w

/-- Begun in `w`, the layers end as `e` says and leave `w'`, if the native strategy ends as `r` says and leaves `u`. -/
def Closes (env : Environment) (ctx : Context ω) (tag : Inclusion) (w : World σ) (r : Rendered) (u : World σ)
    (e : Rendered) (w' : World σ) : Prop :=
  (runLayers ctx tag (Run.ended r u) env.layers).run w = (e, w')

variable {env : Environment} {ctx : Context ω} {tag : Inclusion} {w u w' : World σ} {r e : Rendered}

theorem opened_place (env : Environment) (ctx : Context ω) (tag : Inclusion) (w : World σ) :
    (env.opened ctx tag w).includeDepth = w.includeDepth ∧ (env.opened ctx tag w).source = w.source := by
  unfold opened
  induction env.layers generalizing w with
  | nil => exact ⟨rfl, rfl⟩
  | cons layer layers ih =>
    obtain ⟨hdepth, hsource⟩ := ih (bodyStart ctx tag w)
    exact ⟨hdepth.trans (bodyStart_includeDepth ctx tag w), hsource.trans (bodyStart_source ctx tag w)⟩

/-- The cache-aware layer depends on the layers beneath only by how these end in the state in which it asks them. -/
theorem cacheAware_congr {x y : RenderRun σ String} (h : x.run (bodyStart ctx tag w) = y.run (bodyStart ctx tag w)) :
    (cacheAware ctx tag x).run w = (cacheAware ctx tag y).run w := by
  unfold bodyStart at h
  rw [cacheAware_run, cacheAware_run]
  by_cases hcaching : (w.registers.get ctx.registers).caching = true
  · rw [if_pos hcaching, if_pos hcaching, Run.bind_run, Run.bind_run, track_run, track_run]
    rw [if_pos hcaching] at h
    rw [h]
  · rw [if_neg hcaching, if_neg hcaching]
    rwa [if_neg hcaching] at h

theorem runLayers_congr {x y : RenderRun σ String} {layers : List Layer} (hd : ∀ layer ∈ layers, layer = .cacheAware)
    (h : x.run (layers.foldl (fun w _ => bodyStart ctx tag w) w) =
      y.run (layers.foldl (fun w _ => bodyStart ctx tag w) w)) :
    (runLayers ctx tag x layers).run w = (runLayers ctx tag y layers).run w := by
  induction layers generalizing w with
  | nil => exact h
  | cons layer layers ih =>
    obtain ⟨rfl, hrest⟩ := List.forall_mem_cons.mp hd
    exact cacheAware_congr (ih hrest h)

variable [DataModel ω σ]

/-- An inclusion ends as the layers make of the way in which the native strategy ends. -/
theorem Direct.expandWithin_run (hd : env.Direct) {levels : Nat}
    (ha : (env.ask ctx levels tag).run (env.opened ctx tag w) = (r, u)) :
    (env.expandWithin ctx levels tag).run w = (runLayers ctx tag (Run.ended r u) env.layers).run w := by
  rw [expandWithin_eq_runLayers]
  exact runLayers_congr hd ha

end Environment

/-! ## Closing an inclusion -/

/-- What closing an inclusion keeps: after its body ended as `r` says and left `u`, the layers end as `e` says and leave
`w'`. A failure of the body stays one, and the failures that come in are of two kinds. -/
structure Closed (r : Rendered) (u : World σ) (e : Rendered) (w' : World σ) : Prop where
  depth : w'.includeDepth = u.includeDepth
  answer : w'.source.answer = u.source.answer
  failed : ∀ f, r = .error f → ∃ f', e = .error f'
  failure : ∀ f, e = .error f →
    r = .error f ∨ f = .abort .stackUnderflow ∨ (∃ text, r = .ok text) ∧ ∃ e, f = .error (.source e)

section

variable {ctx : Context ω} {tag : Inclusion} {w u w' w'' : World σ} {r e e' : Rendered}

theorem Closed.refl (r : Rendered) (u : World σ) : Closed r u r u :=
  ⟨rfl, rfl, fun f hr => ⟨f, hr⟩, fun _ => .inl⟩

/-- If the layers answer, then the body has. -/
theorem Closed.exists_ok {text : String} (h : Closed r u (.ok text) w') : ∃ text', r = .ok text' := by
  cases r with
  | ok text' => exact ⟨text', rfl⟩
  | error f =>
    obtain ⟨_, hf⟩ := h.failed f rfl
    cases hf

theorem Closed.trans (h₁ : Closed r u e w') (h₂ : Closed e w' e' w'') : Closed r u e' w'' := by
  refine ⟨h₂.depth.trans h₁.depth, h₂.answer.trans h₁.answer, fun f hr => ?_, fun f he => ?_⟩
  · obtain ⟨f', he⟩ := h₁.failed f hr
    exact h₂.failed f' he
  · obtain he | hunderflow | ⟨⟨text, rfl⟩, hsource⟩ := h₂.failure f he
    · exact h₁.failure f he
    · exact .inr (.inl hunderflow)
    · exact .inr (.inr ⟨h₁.exists_ok, hsource⟩)

/-- What fails when sources are read is a source. -/
theorem World.readTemplate_error {name : String} {f : Failure RenderError}
    (h : ((readTemplate name).run w).1 = .error f) : ∃ e, f = .error (.source e) := by
  rw [readTemplate_run] at h
  split at h
  · cases h
  · cases h
    exact ⟨_, rfl⟩

theorem World.readTemplates_error {names : List String} {f : Failure RenderError}
    (h : ((readTemplates names).run w).1 = .error f) : ∃ e, f = .error (.source e) := by
  induction names generalizing w with
  | nil => cases h
  | cons name names ih =>
    rw [readTemplates] at h
    rcases hread : (readTemplate name).run w with ⟨f' | text, w₁⟩
    · rw [Run.bind_run_of_error hread] at h
      cases h
      exact readTemplate_error (congrArg Prod.fst hread)
    · rw [Run.bind_run_of_ok hread] at h
      rcases hreads : (readTemplates names).run w₁ with ⟨f' | pairs, w₂⟩
      · rw [Run.bind_run_of_error hreads] at h
        cases h
        exact ih (congrArg Prod.fst hreads)
      · rw [Run.bind_run_of_ok hreads] at h
        cases h

theorem settleInclusion_error {text : String} {frame : Frame} {f : Failure RenderError}
    (h : ((settleInclusion ctx tag text frame).run w).1 = .error f) : ∃ e, f = .error (.source e) := by
  rw [settleInclusion] at h
  split at h
  · cases h
  · rcases hread : (readTemplate tag.key).run w with ⟨f' | source, w₁⟩
    · rw [Run.bind_run_of_error hread] at h
      cases h
      exact readTemplate_error (congrArg Prod.fst hread)
    · rw [Run.bind_run_of_ok hread] at h
      rcases hreads : (readTemplates frame.inlined.toList).run w₁ with ⟨f' | pairs, w₂⟩
      · rw [Run.bind_run_of_error hreads] at h
        cases h
        exact readTemplates_error (congrArg Prod.fst hreads)
      · rw [Run.bind_run_of_ok hreads] at h
        cases h

/-- The failures that the cache-aware layer brings in. -/
theorem cacheAware_failure {x : RenderRun σ String} {f : Failure RenderError}
    (hx : x.run (Environment.bodyStart ctx tag w) = (r, u)) (h : ((cacheAware ctx tag x).run w).1 = .error f) :
    r = .error f ∨ f = .abort .stackUnderflow ∨ (∃ text, r = .ok text) ∧ ∃ e, f = .error (.source e) := by
  unfold Environment.bodyStart at hx
  rw [cacheAware_run] at h
  by_cases hcaching : (w.registers.get ctx.registers).caching = true
  · rw [if_pos hcaching] at hx h
    rcases hp : (u.registers.get ctx.registers).stack.pop? with _ | ⟨frame, stack⟩
    · have htrack : (track ctx.registers tag.key x).run w = (.error (.abort .stackUnderflow), u) := by
        rw [track_run, hx]
        simp only [popFrame, Run.run, hp]
      rw [Run.bind_run_of_error htrack] at h
      cases h
      exact .inr (.inl rfl)
    · have htrack := track_run_of_pop? hx hp
      cases r with
      | error f' =>
        rw [Run.bind_run_of_error htrack] at h
        cases h
        exact .inl rfl
      | ok text =>
        rw [Run.bind_run_of_ok htrack] at h
        exact .inr (.inr ⟨⟨text, rfl⟩, settleInclusion_error h⟩)
  · rw [if_neg hcaching] at hx h
    rw [hx] at h
    exact .inl h

theorem cacheAware_closed {x : RenderRun σ String} (hx : x.run (Environment.bodyStart ctx tag w) = (r, u))
    (h : (cacheAware ctx tag x).run w = (e, w')) : Closed r u e w' := by
  rcases hend : (endInclusion ctx tag x).run w with ⟨e', w₁⟩
  have hends := endInclusion_ends hx hend
  rw [cacheAware_eq_map_answer, Run.map_run, hend] at h
  obtain ⟨rfl, rfl⟩ := Prod.mk.inj h
  refine ⟨?_, hends.onward.answer, fun f hr => ?_, fun f he => ?_⟩
  · cases hends <;> rfl
  · subst hr
    obtain ⟨f', rfl⟩ := hends.error
    exact ⟨f', rfl⟩
  · refine cacheAware_failure hx (w := w) ?_
    rw [cacheAware_eq_map_answer, Run.map_run, hend]
    exact he

theorem closed_runLayers {layers : List Layer} (hd : ∀ layer ∈ layers, layer = .cacheAware)
    (h : (runLayers ctx tag (Run.ended r u) layers).run w = (e, w')) : Closed r u e w' := by
  induction layers generalizing w e w' with
  | nil =>
    obtain ⟨rfl, rfl⟩ := Prod.mk.inj h
    exact .refl r u
  | cons layer layers ih =>
    obtain ⟨rfl, hrest⟩ := List.forall_mem_cons.mp hd
    rcases hx : (runLayers ctx tag (Run.ended r u) layers).run (Environment.bodyStart ctx tag w) with ⟨e₁, w₁⟩
    exact (ih hrest hx).trans (cacheAware_closed hx h)

theorem Environment.Direct.closed {env : Environment} (hd : env.Direct) (h : env.Closes ctx tag w r u e w') :
    Closed r u e w' :=
  closed_runLayers hd h

end

/-! ## Courses -/

/-- A moment of a render. -/
structure Moment (σ : Type) where
  /-- The names of the inclusions in progress, innermost first. -/
  inside : List String
  /-- The node that comes next; none if it is the source of the innermost inclusion. -/
  node? : Option Node
  world : World σ

namespace Environment

variable [DataModel ω σ]

/-- Inside of the inclusions `inside`, rendering the nodes from `w` goes through the moments `ms`, ends as `r` says and
leaves `w'`. -/
inductive Course (env : Environment) (ctx : Context ω) :
    (inside : List String) → List Node → World σ → List (Moment σ) → Rendered → World σ → Prop
  | nil {inside : List String} {w : World σ} : Course env ctx inside [] w [] (.ok "") w
  | text {inside : List String} {content : String} {nodes : List Node} {w w' : World σ} {ms : List (Moment σ)}
      {r : Rendered} (h : Course env ctx inside nodes w ms r w') :
      Course env ctx inside (.text content :: nodes) w (⟨inside, some (.text content), w⟩ :: ms)
        (r.map (content ++ ·)) w'
  | output {inside : List String} {v : Variable} {value : String} {nodes : List Node} {w w₁ w' : World σ}
      {ms : List (Moment σ)} {r : Rendered} (hv : (lift (ctx.evaluate v)).run w = (.ok value, w₁))
      (h : Course env ctx inside nodes w₁ ms r w') :
      Course env ctx inside (.output v :: nodes) w (⟨inside, some (.output v), w⟩ :: ms) (r.map (value ++ ·)) w'
  | outputFails {inside : List String} {v : Variable} {nodes : List Node} {w w' : World σ} {f : Failure RenderError}
      (hv : (lift (ctx.evaluate v)).run w = (.error f, w')) :
      Course env ctx inside (.output v :: nodes) w [⟨inside, some (.output v), w⟩] (.error f) w'
  | inclusion {inside : List String} {tag : Inclusion} {t : Template} {nodes : List Node} {w w₁ w₂ w₃ w' : World σ}
      {ms ms' : List (Moment σ)} {r r' : Rendered} {text : String}
      (hb : Enters ctx tag (env.opened ctx tag w) t w₁) (hbody : Course env ctx (tag.key :: inside) t.nodes w₁ ms r w₂)
      (hend : env.Closes ctx tag w r w₂.shallower (.ok text) w₃) (h : Course env ctx inside nodes w₃ ms' r' w') :
      Course env ctx inside (.inclusion tag :: nodes) w
        (⟨inside, some (.inclusion tag), w⟩ :: ⟨tag.key :: inside, none, (env.opened ctx tag w).deeper⟩ :: ms ++ ms')
        (r'.map (text ++ ·)) w'
  /-- The inclusion fails after it has come to its nodes: in these, or in the layers. -/
  | inclusionFails {inside : List String} {tag : Inclusion} {t : Template} {nodes : List Node} {w w₁ w₂ w' : World σ}
      {ms : List (Moment σ)} {r : Rendered} {f : Failure RenderError}
      (hb : Enters ctx tag (env.opened ctx tag w) t w₁) (hbody : Course env ctx (tag.key :: inside) t.nodes w₁ ms r w₂)
      (hend : env.Closes ctx tag w r w₂.shallower (.error f) w') :
      Course env ctx inside (.inclusion tag :: nodes) w
        (⟨inside, some (.inclusion tag), w⟩ :: ⟨tag.key :: inside, none, (env.opened ctx tag w).deeper⟩ :: ms)
        (.error f) w'
  /-- The inclusion does not come to any nodes. -/
  | stopped {inside : List String} {tag : Inclusion} {nodes : List Node} {w u w' : World σ} {read : Bool}
      {f f' : Failure RenderError} (hb : Misses ctx tag (env.opened ctx tag w) read f u)
      (hend : env.Closes ctx tag w (.error f) u (.error f') w') :
      Course env ctx inside (.inclusion tag :: nodes) w
        (⟨inside, some (.inclusion tag), w⟩ ::
          if read then [⟨tag.key :: inside, none, (env.opened ctx tag w).deeper⟩] else []) (.error f') w'

variable {env : Environment} {ctx : Context ω} {inside : List String} {nodes : List Node} {w w' : World σ}
  {ms : List (Moment σ)} {r : Rendered}

/-- A course begins at the first node. -/
theorem Course.first_mem {node : Node} (h : Course env ctx inside (node :: nodes) w ms r w') :
    ⟨inside, some node, w⟩ ∈ ms := by
  cases h <;> exact List.mem_cons_self

/-- The render is as deep as before, and the source answers as before. -/
structure SamePlace (w w' : World σ) : Prop where
  depth : w'.includeDepth = w.includeDepth
  answer : w'.source.answer = w.source.answer

omit [DataModel ω σ] in
theorem Enters.place {tag : Inclusion} {t : Template} {w w₁ : World σ}
    (h : Enters ctx tag (env.opened ctx tag w) t w₁) :
    w₁.includeDepth = w.includeDepth + 1 ∧ w₁.source.answer = w.source.answer := by
  obtain ⟨hdepth, hsource⟩ := env.opened_place ctx tag w
  rw [h.state]
  refine ⟨congrArg (· + 1) hdepth, ?_⟩
  show (env.opened ctx tag w).source.answer = w.source.answer
  rw [hsource]

omit [DataModel ω σ] in
/-- An inclusion ends where it began if the native strategy comes back one less deep than the nodes were. -/
theorem Direct.closes_place {tag : Inclusion} {t : Template} {w w₁ w₂ w' : World σ} {e : Rendered} (hd : env.Direct)
    (hb : Enters ctx tag (env.opened ctx tag w) t w₁) (hbody : SamePlace w₁ w₂)
    (hend : env.Closes ctx tag w r w₂.shallower e w') : SamePlace w w' := by
  obtain ⟨hdepth, hanswer⟩ := hb.place
  have hclosed := hd.closed hend
  refine ⟨?_, hclosed.answer.trans (hbody.answer.trans hanswer)⟩
  rw [hclosed.depth, World.shallower, hbody.depth, hdepth]
  rfl

omit [DataModel ω σ] in
theorem Direct.misses_place {tag : Inclusion} {read : Bool} {f : Failure RenderError} {w u w' : World σ} {e : Rendered}
    (hd : env.Direct) (hb : Misses ctx tag (env.opened ctx tag w) read f u)
    (hend : env.Closes ctx tag w (.error f) u e w') : SamePlace w w' := by
  obtain ⟨hdepth, hsource⟩ := env.opened_place ctx tag w
  obtain ⟨s, rfl, hanswer⟩ := hb.state
  have hclosed := hd.closed hend
  exact ⟨hclosed.depth.trans hdepth, hclosed.answer.trans (hanswer.trans (congrArg Source.answer hsource))⟩

theorem place_of_evaluate {v : Variable} (hv : (lift (ctx.evaluate v)).run w = (r, w')) : SamePlace w w' := by
  obtain ⟨-, rfl⟩ := Prod.mk.inj hv
  exact ⟨rfl, rfl⟩

/-- However nodes end, they end where they began. -/
theorem Course.place (hd : env.Direct) (h : Course env ctx inside nodes w ms r w') : SamePlace w w' := by
  induction h with
  | nil => exact ⟨rfl, rfl⟩
  | text _ ih => exact ih
  | output hv _ ih =>
    have hplace := place_of_evaluate hv
    exact ⟨ih.depth.trans hplace.depth, ih.answer.trans hplace.answer⟩
  | outputFails hv => exact place_of_evaluate hv
  | inclusion hb hbody hend _ ihb ih =>
    have hplace := hd.closes_place hb ihb hend
    exact ⟨ih.depth.trans hplace.depth, ih.answer.trans hplace.answer⟩
  | inclusionFails hb hbody hend ihb => exact hd.closes_place hb ihb hend
  | stopped hb hend => exact hd.misses_place hb hend

/-- At every moment the render is just as deep as there are inclusions in progress, besides those around all of it. -/
theorem Course.depth_add (hd : env.Direct) (h : Course env ctx inside nodes w ms r w') {m : Moment σ} (hm : m ∈ ms) :
    m.world.includeDepth + inside.length = w.includeDepth + m.inside.length := by
  have hread : ∀ {inside : List String} {tag : Inclusion} {w : World σ},
      (env.opened ctx tag w).deeper.includeDepth + inside.length = w.includeDepth + (tag.key :: inside).length := by
    intro inside tag w
    have hdepth : (env.opened ctx tag w).deeper.includeDepth = w.includeDepth + 1 :=
      congrArg (· + 1) (env.opened_place ctx tag w).1
    rw [hdepth, List.length_cons]
    omega
  induction h with
  | nil => cases hm
  | text _ ih =>
    obtain rfl | hm := List.mem_cons.mp hm
    · rfl
    · exact ih hm
  | output hv _ ih =>
    obtain rfl | hm := List.mem_cons.mp hm
    · rfl
    · rw [ih hm, (place_of_evaluate hv).depth]
  | outputFails =>
    obtain rfl := List.mem_singleton.mp hm
    rfl
  | inclusion hb hbody hend _ ihb ih =>
    simp only [List.cons_append, List.mem_cons, List.mem_append] at hm
    rcases hm with rfl | rfl | hm | hm
    · rfl
    · exact hread
    · have hinner := ihb hm
      rw [hb.place.1, List.length_cons] at hinner
      omega
    · rw [ih hm, (hd.closes_place hb (hbody.place hd) hend).depth]
  | inclusionFails hb hbody hend ihb =>
    simp only [List.mem_cons] at hm
    rcases hm with rfl | rfl | hm
    · rfl
    · exact hread
    · have hinner := ihb hm
      rw [hb.place.1, List.length_cons] at hinner
      omega
  | @stopped inside tag nodes w u w' read =>
    obtain rfl | hm := List.mem_cons.mp hm
    · rfl
    · cases read with
      | true =>
        obtain rfl := List.mem_singleton.mp hm
        exact hread
      | false => cases hm

/-- A course ends as the run does. -/
theorem Course.run (hd : env.Direct) (h : Course env ctx inside nodes w ms r w') :
    (renderWith ctx (env.expandWithin ctx (ctx.includeLimit - w.includeDepth)) nodes).run w = (r, w') := by
  induction h with
  | nil => rfl
  | @text inside content nodes w w' ms r h ih => rw [renderWith_cons_run_of_ok (.text content) rfl, ih]
  | @output inside v value nodes w w₁ w' ms r hv h ih =>
    rw [(place_of_evaluate hv).depth] at ih
    rw [renderWith_cons_run_of_ok (.output v) hv, ih]
  | @outputFails inside v nodes w w' f hv => exact renderWith_cons_run_of_error (.output v) hv _
  | @inclusion inside tag t nodes w w₁ w₂ w₃ w' ms ms' r r' text hb hbody hend h ihb ih =>
    have ha := hb.run env
    rw [ihb, (env.opened_place ctx tag w).1] at ha
    have hx := (hd.expandWithin_run ha).trans hend
    rw [(hd.closes_place hb (hbody.place hd) hend).depth] at ih
    rw [renderWith_cons_run_of_ok (.inclusion tag) hx, ih]
  | @inclusionFails inside tag t nodes w w₁ w₂ w' ms r f hb hbody hend ihb =>
    have ha := hb.run env
    rw [ihb, (env.opened_place ctx tag w).1] at ha
    exact renderWith_cons_run_of_error (.inclusion tag) ((hd.expandWithin_run ha).trans hend) _
  | @stopped inside tag nodes w u w' read f f' hb hend =>
    have ha := hb.run env
    rw [(env.opened_place ctx tag w).1] at ha
    exact renderWith_cons_run_of_error (.inclusion tag) ((hd.expandWithin_run ha).trans hend) _

/-- A render ends as the course of its nodes does. -/
theorem Course.render (hd : env.Direct) {t : Template}
    (h : Course env ctx inside t.nodes (renderStart ctx w) ms r w') :
    (env.render ctx t).run w = (r, { w' with toShared := w'.toShared.report .renderEnded }) := by
  rw [render_run, renderNodes_run, h.run hd]

/-- If the nodes of the included template have a course, and so have the nodes behind the inclusion from wherever it
ends, then there is a course of all. -/
theorem exists_course_inclusion (hd : env.Direct) {tag : Inclusion} {t : Template} {w w₁ w₂ : World σ}
    (hb : Enters ctx tag (env.opened ctx tag w) t w₁) (hbody : Course env ctx (tag.key :: inside) t.nodes w₁ ms r w₂)
    (hrest : ∀ w₃, SamePlace w w₃ → ∃ ms r w', Course env ctx inside nodes w₃ ms r w') :
    ∃ ms' r' w', Course env ctx inside (.inclusion tag :: nodes) w ms' r' w' ∧ ∀ m ∈ ms, m ∈ ms' := by
  rcases hend : (runLayers ctx tag (Run.ended r w₂.shallower) env.layers).run w with ⟨f | text, w₃⟩
  · exact ⟨_, _, _, .inclusionFails hb hbody hend,
      fun m hm => List.mem_cons_of_mem _ (List.mem_cons_of_mem _ hm)⟩
  · obtain ⟨ms', r', w', h⟩ := hrest w₃ (hd.closes_place hb (hbody.place hd) hend)
    exact ⟨_, _, _, .inclusion hb hbody hend h,
      fun m hm => List.mem_append_left _ (List.mem_cons_of_mem _ (List.mem_cons_of_mem _ hm))⟩

/-- Every run has a course: it ends, and not because it is cut off. -/
theorem exists_course (hd : env.Direct) (ctx : Context ω) (inside : List String) (nodes : List Node) (w : World σ) :
    ∃ ms r w', Course env ctx inside nodes w ms r w' := by
  -- The descent is on how much deeper inclusions may go, and at one depth along the nodes.
  induction hl : ctx.includeLimit - w.includeDepth using Nat.strongRecOn generalizing inside nodes w with
  | ind levels ihl =>
    induction nodes generalizing w with
    | nil => exact ⟨_, _, _, .nil⟩
    | cons node nodes ih =>
      cases node with
      | text content =>
        obtain ⟨ms, r, w', h⟩ := ih w hl
        exact ⟨_, _, _, .text h⟩
      | output v =>
        rcases hv : (lift (ctx.evaluate v)).run w with ⟨f | value, w₁⟩
        · exact ⟨_, _, _, .outputFails hv⟩
        · obtain ⟨ms, r, w', h⟩ := ih w₁ (by rw [(place_of_evaluate hv).depth, hl])
          exact ⟨_, _, _, .output hv h⟩
      | inclusion tag =>
        obtain ⟨t, w₁, hb⟩ | ⟨read, f, u, hb⟩ := enters_or_misses ctx tag (env.opened ctx tag w)
        · have hlimit : w.includeDepth < ctx.includeLimit := (env.opened_place ctx tag w).1 ▸ hb.limit
          have hdeeper : ctx.includeLimit - w₁.includeDepth < levels := by
            have hdepth := hb.place.1
            omega
          obtain ⟨ms, r, w₂, hbody⟩ := ihl _ hdeeper (tag.key :: inside) t.nodes w₁ rfl
          obtain ⟨ms', r', w', h, -⟩ := exists_course_inclusion hd hb hbody fun w₃ hplace =>
            ih w₃ (by rw [hplace.depth, hl])
          exact ⟨ms', r', w', h⟩
        · rcases hend : (runLayers ctx tag (Run.ended (.error f) u) env.layers).run w with ⟨e, w'⟩
          obtain ⟨f', rfl⟩ := (hd.closed hend).failed f rfl
          exact ⟨_, _, _, .stopped hb hend⟩

end Environment

end HybridTemplate
