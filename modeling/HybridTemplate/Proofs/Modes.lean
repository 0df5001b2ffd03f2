import HybridTemplate.Proofs.Acts
import HybridTemplate.Proofs.Framing
import HybridTemplate.Proofs.Watched

/-!
# Caching mode fails just when plain mode does

In caching mode an inclusion is rendered inside a frame, more templates are read, and directives stand in place of
texts. Objects that do not consult the registers cannot tell. A read that is added is one of a template that was read
before, if objects leave the frames in place and record no names without a template. So a render in caching mode makes
the same calls as one in plain mode, and fails just if that one does.

* `Oblivious` — objects that do not consult the registers; they may have a state and answer it, and write to the
  registers. `Registers.Gathers` is the bound for what they write;
* `Context.ObliviousWithin` — both, for all objects within reach;
* `Beside` — a state of a cache-aware render beside one of a render in place. `beside_cacheAware` is the step: what the
  layer adds to an inclusion neither fails nor acts on objects. `beside_renderNodes` carries it through a render;
* `render_modes` — the two modes. Objects that write more can tell them apart, and so can those that are answered by
  others (`Sample.modes_told_apart`).
-/

namespace HybridTemplate

open Registers (Handle)
open World

/-! ## What frames gather -/

/-- There is a template under the name. -/
def Catalog.Has (C : Catalog) (n : String) : Prop :=
  ∃ text, C n = .ok text

/-- The frame has kept its name, and only names in `K` were added to those inlined. -/
def Frame.Gathers (K : String → Prop) (f f' : Frame) : Prop :=
  f'.name = f.name ∧ ∀ n ∈ f'.inlined, n ∈ f.inlined ∨ K n

/-- There are as many frames, and each has gathered only names in `K`. Nothing is said about marks, the mode and the
artifacts. -/
def Registers.Gathers (K : String → Prop) (r r' : Registers) : Prop :=
  r.stack.Framewise (Frame.Gathers K) r'.stack

section

variable {K : String → Prop}

theorem Frame.Gathers.refl (f : Frame) : f.Gathers K f :=
  ⟨rfl, fun _ hn => Or.inl hn⟩

theorem Frame.Gathers.trans (f g k : Frame) (h₁ : f.Gathers K g) (h₂ : g.Gathers K k) : f.Gathers K k :=
  ⟨h₂.1.trans h₁.1, fun n hn => (h₂.2 n hn).elim (h₁.2 n) Or.inr⟩

theorem bound_gathers : Bound (Registers.Gathers K) where
  refl r := .refl Frame.Gathers.refl r.stack
  trans h₁ h₂ := FrameStack.Framewise.trans Frame.Gathers.trans h₁ h₂
  mark r := FrameStack.framewise_markUncacheable Frame.Gathers.refl (fun _ => ⟨rfl, fun _ hn => Or.inl hn⟩) r.stack

/-- A frame gathers the names of another one that was frozen into it. -/
theorem Registers.gathers_recordInlined {f : Frame} (hname : K f.name) (hinlined : ∀ n ∈ f.inlined, K n)
    (r : Registers) : r.Gathers K (r.mapStack (·.recordInlined f)) := by
  refine FrameStack.framewise_recordInlined Frame.Gathers.refl (fun g => ⟨rfl, fun n hn => ?_⟩) r.stack
  rcases NameSet.mem_insert.mp hn with rfl | hn
  · exact Or.inr hname
  · exact (NameSet.mem_union.mp hn).imp_right (hinlined n)

end

/-! ## Objects that do not consult the registers -/

/-- The objects are in states in `q`; nothing is said about registers and the log. -/
def Shared.Objects {σ : Type} (q : σ → σ → Prop) (w w' : Shared σ) : Prop :=
  q w.objects w'.objects

/-- Whatever the registers are, and whatever was reported, the objects in `held` answer alike and get into the same
state. -/
structure Oblivious {ω σ : Type} [DataModel ω σ] (held : ω → Prop) : Prop where
  invoke : ∀ o, held o → ∀ member,
    Run.Related (Shared.Objects Eq) Eq (DataModel.invoke o member) (DataModel.invoke o member)
  toOutput : ∀ o, held o → Run.Related (Shared.Objects Eq) Eq (DataModel.toOutput o) (DataModel.toOutput o)

section

variable {ω σ : Type} {held : ω → Prop}

theorem DataObject.related_taint_objects (member : String) (registers : Option Handle) :
    Run.Related (Shared.Objects Eq) Eq (taint (σ := σ) registers member) (taint registers member) := by
  intro w w' hw
  cases registers with
  | none => exact ⟨.ok rfl, hw⟩
  | some h => exact ⟨.ok rfl, hw⟩

variable [DataModel ω σ] {S : Registers → Registers → Prop} {h : Handle} {v : Value ω}

theorem Value.related_get (ho : Oblivious held) (hc : Confined S h held) (hv : v.In held) (key : String) :
    Run.Related (Shared.Objects Eq) (fun v v' => v = v' ∧ v.In held) (v.get key) (v.get key) := by
  have hget : Run.Related (Shared.Objects Eq) Eq (v.get key) (v.get key) := by
    cases v with
    | json j => exact Run.related_pure rfl
    | object o =>
      exact DataObject.related_access (DataObject.related_taint_objects key) (ho.invoke o.core (hv o rfl) key)
  exact hget.and_yields fun w v' w' hr => in_get hc hv hr

theorem Value.related_path (ho : Oblivious held) (hc : Confined S h held) (keys : List String) (hv : v.In held) :
    Run.Related (Shared.Objects Eq) Eq (do (← v.getAll keys).render) (do (← v.getAll keys).render) := by
  induction keys generalizing v with
  | nil =>
    cases v with
    | json j => exact Run.related_pure rfl
    | object o =>
      exact DataObject.related_access (DataObject.related_taint_objects "to_output") (ho.toOutput o.core (hv o rfl))
  | cons key keys ih =>
    rw [path_cons]
    refine (related_get ho hc hv key).bind fun v v' ⟨hvv, hv⟩ => ?_
    subst hvv
    exact ih hv

/-- The objects within reach of the variables, those that are answered included, do not consult the registers, and keep
within `S` with what they write to the registers of the render. -/
def Context.ObliviousWithin (S : Registers → Registers → Prop) (ctx : Context ω) : Prop :=
  ∃ held : ω → Prop, Oblivious held ∧ HybridTemplate.Confined S ctx.registers held ∧ ∀ name, (ctx.lookup name).In held

variable {ctx : Context ω}

theorem Context.ObliviousWithin.related_evaluate (hc : ctx.ObliviousWithin S) (v : Variable) :
    Run.Related (Shared.Objects Eq) Eq (ctx.evaluate v) (ctx.evaluate v) := by
  obtain ⟨held, ho, hheld, hin⟩ := hc
  exact Value.related_path ho hheld v.members (hin v.name)

theorem Context.ObliviousWithin.confined (hc : ctx.ObliviousWithin S) : ctx.Confined S := by
  obtain ⟨held, -, hheld, hin⟩ := hc
  exact ⟨held, hheld, hin⟩

/-- Objects do not consult the registers when they are watched, if they do not otherwise. -/
theorem Oblivious.watched (ho : Oblivious held) : Oblivious fun o : Watched ω => held o.object where
  invoke o hheld member w w' hw := by
    have hcalls : w.objects.calls = w'.objects.calls := congrArg Watch.calls hw
    obtain ⟨hans, hend⟩ := ho.invoke o.object hheld member w.unwatched w'.unwatched (congrArg Watch.objects hw)
    rw [Watched.invoke_run, Watched.invoke_run, hans.eq, hcalls]
    refine ⟨.of_eq (fun _ => rfl) rfl, ?_⟩
    exact congrArg (Watch.mk · _) hend
  toOutput o hheld w w' hw := by
    have hcalls : w.objects.calls = w'.objects.calls := congrArg Watch.calls hw
    obtain ⟨hans, hend⟩ := ho.toOutput o.object hheld w.unwatched w'.unwatched (congrArg Watch.objects hw)
    have hnote : Watch.mk ((DataModel.toOutput o.object).run w.unwatched).2.objects
          (.shown o.object ((DataModel.toOutput o.object).run w.unwatched).1 :: w.objects.calls) =
        Watch.mk ((DataModel.toOutput o.object).run w'.unwatched).2.objects
          (.shown o.object ((DataModel.toOutput o.object).run w'.unwatched).1 :: w'.objects.calls) := by
      rw [hans.eq, hcalls, show _ = _ from hend]
    exact ⟨hans, hnote⟩

theorem Context.ObliviousWithin.watched (hc : ctx.ObliviousWithin S) : ctx.watched.ObliviousWithin S := by
  obtain ⟨held, ho, hheld, hin⟩ := hc
  refine ⟨_, ho.watched, hheld.watched, fun name => ?_⟩
  rw [lookup_watched]
  exact Value.in_watched (hin name)

end

/-! ## Reading what there is -/

section

variable {σ : Type} {C : Catalog} {w : World σ}

theorem exists_readTemplate (hs : w.source.Serves C) {name : String} (hname : C.Has name) :
    ∃ text source, (readTemplate name).run w = (.ok text, { w with source }) ∧
      source.answer = w.source.answer := by
  obtain ⟨text, htext⟩ := hname
  exact ⟨text, (w.source.read name).2, by rw [readTemplate_run, hs, htext], rfl⟩

theorem exists_readTemplates (hs : w.source.Serves C) {names : List String} (hnames : ∀ n ∈ names, C.Has n) :
    ∃ pairs source, (readTemplates names).run w = (.ok pairs, { w with source }) ∧
      source.answer = w.source.answer := by
  induction names generalizing w with
  | nil => exact ⟨[], w.source, rfl, rfl⟩
  | cons name names ih =>
    obtain ⟨hname, hnames⟩ := List.forall_mem_cons.mp hnames
    obtain ⟨text, s₁, h₁, ha₁⟩ := exists_readTemplate hs hname
    obtain ⟨pairs, s₂, h₂, ha₂⟩ := ih (w := { w with source := s₁ }) (hs.congr ha₁) hnames
    refine ⟨(name, text) :: pairs, s₂, ?_, ha₂.trans ha₁⟩
    rw [readTemplates, Run.bind_run_of_ok h₁, Run.bind_run_of_ok h₂]
    rfl

end

/-! ## A cache-aware render beside a render in place -/

/-- A state of a cache-aware render beside one of a render in place: the objects are in states in `q`, the depth is the
same, both sources serve the catalog, and since the registers were `base` the frames have gathered only names that have
a template. -/
structure Beside {ω σ : Type} (ctx : Context ω) (C : Catalog) (q : σ → σ → Prop) (base : Registers)
    (w w' : World σ) : Prop where
  objects : q w.objects w'.objects
  depth : w.includeDepth = w'.includeDepth
  serves : w.source.Serves C
  serves' : w'.source.Serves C
  gathers : base.Gathers C.Has (w.registers.get ctx.registers)

section

variable {ω σ : Type} {ctx : Context ω} {C : Catalog} {q : σ → σ → Prop} {base : Registers} {w w' : World σ}

theorem congruent_beside : Congruent (fun _ => True) (Beside ctx C q base) where
  depth hw := hw.depth
  atDepth d hw := ⟨hw.objects, rfl, hw.serves, hw.serves', hw.gathers⟩
  read _ hw := by
    refine ⟨?_, hw.objects, hw.depth, hw.serves, hw.serves', hw.gathers⟩
    rw [Source.read, Source.read, hw.serves, hw.serves']
  report e hw := ⟨hw.objects, hw.depth, hw.serves, hw.serves', hw.gathers⟩

namespace Beside

/-- Beside states stay so if a source is put in place that answers as before. -/
theorem withSource (hw : Beside ctx C q base w w') {source : Source} (ha : source.answer = w.source.answer) :
    Beside ctx C q base { w with source } w' :=
  ⟨hw.objects, hw.depth, hw.serves.congr ha, hw.serves', hw.gathers⟩

/-- An event on one side makes no difference. -/
theorem reported (hw : Beside ctx C q base w w') (e : Event) :
    Beside ctx C q base { w with toShared := w.toShared.report e } w' :=
  ⟨hw.objects, hw.depth, hw.serves, hw.serves', hw.gathers⟩

/-- Beside states stay so if the frames gather names that have a template. -/
theorem withRegisters (hw : Beside ctx C q base w w') {g : Registers → Registers}
    (hg : base.Gathers C.Has (g (w.registers.get ctx.registers))) :
    Beside ctx C q base { w with toShared := w.toShared.modifyRegisters ctx.registers g } w' := by
  refine ⟨hw.objects, hw.depth, hw.serves, hw.serves', ?_⟩
  rw [Shared.get_modifyRegisters_self]
  exact hg

/-- Inside a frame the registers are to be compared with those that have the frame. -/
theorem entered (hw : Beside ctx C q base w w') (name : String) :
    Beside ctx C q ((w.registers.get ctx.registers).mapStack (·.push name)) (w.entered ctx.registers name) w' := by
  refine ⟨hw.objects, hw.depth, hw.serves, hw.serves', ?_⟩
  rw [World.entered, Shared.get_modifyRegisters_self]
  exact bound_gathers.refl _

end Beside

/-- What follows the bracket in the cache-aware layer never fails if all templates are there that it reads. -/
theorem beside_settleInclusion (hw : Beside ctx C q base w w') {tag : Inclusion} {frame : Frame} (htag : C.Has tag.key)
    (hname : frame.name = tag.key) (hinlined : ∀ n ∈ frame.inlined, C.Has n) (text : String) :
    ∃ text' w₁, (settleInclusion ctx tag text frame).run w = (.ok text', w₁) ∧ Beside ctx C q base w₁ w' := by
  rw [settleInclusion]
  split
  · refine ⟨text, _, rfl, ?_⟩
    refine (hw.reported (.frozen tag.key)).withRegisters ?_
    exact bound_gathers.trans hw.gathers (Registers.gathers_recordInlined (hname ▸ htag) hinlined _)
  · obtain ⟨source, s₁, h₁, ha₁⟩ := exists_readTemplate hw.serves htag
    obtain ⟨inlined, s₂, h₂, ha₂⟩ := exists_readTemplates (hw.withSource ha₁).serves
      fun n hn => hinlined n (NameSet.mem_toList.mp hn)
    rw [Run.bind_run_of_ok h₁, Run.bind_run_of_ok h₂]
    refine ⟨tag.directive, _, rfl, ?_⟩
    exact (((hw.withSource ha₁).withSource ha₂).reported _).withRegisters hw.gathers

/-- What the cache-aware layer adds to an inclusion makes no difference to objects and never fails. -/
theorem beside_cacheAware {tag : Inclusion} {inner inner' : RenderRun σ String}
    (hi : ∀ base, Run.Related (Beside ctx C q base) (fun _ _ => C.Has tag.key) inner inner') (base : Registers) :
    Run.Related (Beside ctx C q base) (fun _ _ => True) (cacheAware ctx tag inner) inner' := by
  intro w w' hw
  rw [cacheAware_run]
  split
  · obtain ⟨hans, hend⟩ := hi _ _ w' (hw.entered tag.key)
    rcases hx : inner.run (w.entered ctx.registers tag.key) with ⟨r, w₁⟩
    rw [hx] at hans hend
    obtain ⟨f, stack, hp, ⟨hname, hinlined⟩, hstack, -⟩ := FrameStack.Framewise.pop?_push hend.gathers
    have hpopped : Beside ctx C q base
        { w₁ with toShared := w₁.toShared.modifyRegisters ctx.registers fun r => { r with stack } }
        (inner'.run w').2 := by
      refine ⟨hend.objects, hend.depth, hend.serves, hend.serves', ?_⟩
      rw [Shared.get_modifyRegisters_self]
      exact FrameStack.Framewise.trans Frame.Gathers.trans hw.gathers hstack
    rw [Run.bind_run, track_run_of_pop? hx hp]
    generalize (inner'.run w').1 = r' at hans ⊢
    cases hans with
    | error e => exact ⟨.error e, hpopped⟩
    | @ok text _ htag =>
      obtain ⟨text', w₂, hr, hw₂⟩ := beside_settleInclusion hpopped htag hname
        (fun n hn => (hinlined n hn).resolve_left (NameSet.notMem_empty n)) text
      show EndsAlike _ ((settleInclusion ctx tag text f).run _).1 _ ∧
        Beside ctx C q base ((settleInclusion ctx tag text f).run _).2 _
      rw [hr]
      exact ⟨.ok trivial, hw₂⟩
  · obtain ⟨hans, hend⟩ := hi base w w' hw
    exact ⟨hans.mono fun _ _ _ => trivial, hend⟩

end

namespace Environment

variable {ω σ : Type} [DataModel ω σ] {ctx : Context ω} {C : Catalog} {q : σ → σ → Prop}

omit [DataModel ω σ] in
/-- A template that both sides read is one that is there. -/
theorem beside_readTemplate (base : Registers) (name : String) :
    Run.Related (Beside ctx C q base) (fun text text' => text = text' ∧ C.Has name) (readTemplate (σ := σ) name)
      (readTemplate name) := by
  intro w w' hw
  obtain ⟨hans, hend⟩ := congruent_beside.related_readTemplate (trivial : (fun _ : String => True) name) w w' hw
  refine ⟨?_, hend⟩
  rw [readTemplate_run, readTemplate_run, hw.serves, hw.serves']
  rcases hC : C name with e | text
  · exact .error _
  · exact .ok ⟨rfl, text, hC⟩

/-- Outputs show the same on both sides. -/
theorem beside_evaluate (hv : ∀ v, Run.Related (Shared.Objects q) Eq (ctx.evaluate v) (ctx.evaluate v))
    (hc : ctx.Confined (Registers.Gathers C.Has)) (base : Registers) (v : Variable) :
    Run.Related (Beside ctx C q base) (fun _ _ => True) (lift (ctx.evaluate v)) (lift (ctx.evaluate v)) := by
  intro w w' hw
  obtain ⟨hans, hend⟩ := hv v w.toShared w'.toShared hw.objects
  refine ⟨hans.mono fun _ _ _ => trivial, hend, hw.depth, hw.serves, hw.serves', ?_⟩
  exact bound_gathers.trans hw.gathers (hc.within bound_gathers v w.toShared)

theorem expandWithin_native_zero (tag : Inclusion) :
    native.expandWithin (σ := σ) ctx 0 tag = (do .raise (.nestingTooDeep (← Run.look World.includeDepth))) := by
  rw [expandWithin]
  rfl

theorem expandWithin_native_succ (levels : Nat) (tag : Inclusion) :
    native.expandWithin (σ := σ) ctx (levels + 1) tag =
      nested id ctx.includeLimit (renderTemplate ctx (native.expandWithin ctx levels) tag.key) := by
  rw [expandWithin]
  rfl

/-- An inclusion through the cache-aware layer fails just if it fails in place, and makes no difference to objects. -/
theorem beside_expandWithin (hv : ∀ v, Run.Related (Shared.Objects q) Eq (ctx.evaluate v) (ctx.evaluate v))
    (hc : ctx.Confined (Registers.Gathers C.Has)) (levels : Nat) (base : Registers) (tag : Inclusion) :
    Run.Related (Beside ctx C q base) (fun _ _ => True) (cached.expandWithin ctx levels tag)
      (native.expandWithin ctx levels tag) := by
  induction levels generalizing tag base with
  | zero =>
    rw [expandWithin_cached_zero, expandWithin_native_zero]
    exact beside_cacheAware (fun base => congruent_beside.related_tooDeep) base
  | succ levels ih =>
    rw [expandWithin_cached_succ, expandWithin_native_succ]
    refine beside_cacheAware (fun base => congruent_beside.related_nested ?_) base
    refine (beside_readTemplate base tag.key).bind fun source source' ⟨hsource, hhas⟩ => ?_
    subst hsource
    rcases Template.parse source with e | t
    · exact Run.related_fail _
    · refine (related_renderWith joins_true (fun v _ => beside_evaluate hv hc base v) fun tag _ => ih base tag).mono ?_
      exact fun _ _ _ => hhas

theorem beside_renderNodes (hv : ∀ v, Run.Related (Shared.Objects q) Eq (ctx.evaluate v) (ctx.evaluate v))
    (hc : ctx.Confined (Registers.Gathers C.Has)) (base : Registers) (t : Template) :
    Run.Related (Beside ctx C q base) (fun _ _ => True) (cached.renderNodes ctx t) (native.renderNodes ctx t) :=
  related_renderNodes_of_expandWithin congruent_beside rfl joins_true (beside_evaluate hv hc base)
    (fun levels tag _ => beside_expandWithin hv hc levels base tag) fun _ _ => trivial

/-- From any two states in which the objects are in states in `q`, the nodes of a template fail alike, whatever the
registers are: both renders fail just if the one in place does. -/
theorem renderNodes_alike (hq : Equivalence q)
    (hv : ∀ v, Run.Related (Shared.Objects q) Eq (ctx.evaluate v) (ctx.evaluate v))
    (hc : ctx.Confined (Registers.Gathers C.Has)) (t : Template) {w w' : World σ} (hobjects : q w.objects w'.objects)
    (hdepth : w.includeDepth = w'.includeDepth) (hs : w.source.Serves C) (hs' : w'.source.Serves C) :
    EndsAlike (fun _ _ => True) ((cached.renderNodes ctx t).run w).1 ((cached.renderNodes ctx t).run w').1 ∧
      q ((cached.renderNodes ctx t).run w).2.objects ((cached.renderNodes ctx t).run w').2.objects := by
  obtain ⟨hans, hend⟩ := beside_renderNodes hv hc (w.registers.get ctx.registers) t w w'
    ⟨hobjects, hdepth, hs, hs', bound_gathers.refl _⟩
  obtain ⟨hans', hend'⟩ := beside_renderNodes hv hc (w'.registers.get ctx.registers) t w' w'
    ⟨hq.refl _, rfl, hs', hs', bound_gathers.refl _⟩
  exact ⟨hans.any_of_common hans', hq.trans hend.objects (hq.symm hend'.objects)⟩

end Environment

/-! ## The two modes -/

/-- The state with the registers of a render in or out of caching mode. -/
def World.inMode {σ : Type} (w : World σ) (h : Handle) (caching : Bool) : World σ :=
  { w with toShared := w.toShared.modifyRegisters h (·.setCaching caching) }

namespace Environment

variable {ω σ : Type} [DataModel ω σ] {ctx : Context ω} {C : Catalog} {w : World σ}

/-- Whatever mode a render is in, it fails alike and leaves the objects alike. -/
theorem render_inMode (hc : ctx.ObliviousWithin (Registers.Gathers C.Has)) (hs : w.source.Serves C) (t : Template)
    (mode mode' : Bool) :
    EndsAlike (fun _ _ => True) ((cached.render ctx t).run (w.inMode ctx.registers mode)).1
        ((cached.render ctx t).run (w.inMode ctx.registers mode')).1 ∧
      ((cached.render ctx t).run (w.inMode ctx.registers mode)).2.objects =
        ((cached.render ctx t).run (w.inMode ctx.registers mode')).2.objects := by
  rw [render_run, render_run]
  exact renderNodes_alike (q := Eq) eq_equivalence hc.related_evaluate hc.confined t rfl rfl hs hs

end Environment

/-! ## Scripts that look nothing up -/

/-- The answer is fixed or counts; no registers are looked at for it, and it is no object. -/
def Answer.Blind : Answer → Prop
  | .probe _ => False
  | .object _ _ => False
  | _ => True

/-- The answer of the act is blind, whatever its effects are. -/
def Act.Blind : Act → Prop
  | .mk _ answer => answer.Blind

/-- All acts of the script are blind. -/
structure Script.Blind (s : Script) : Prop where
  actFor? : ∀ member act, s.actFor? member = some act → act.Blind
  output : ∀ act, s.output = some act → act.Blind

namespace Scripted

theorem related_onHeap (g : Heap → Heap) :
    Run.Related (Shared.Objects Eq) Eq (Run.modify (onHeap g) : ObjectRun Heap Unit) (Run.modify (onHeap g)) :=
  Run.related_modify fun _ _ hw => congrArg g hw

theorem related_perform (o : Scripted) (member : String) {act : Act} (ha : act.Blind) :
    Run.Related (Shared.Objects Eq) (fun v v' => v = v' ∧ v.isObject = false) (o.perform member act)
      (o.perform member act) := by
  obtain ⟨effects, answer⟩ := act
  rw [perform]
  have hcount : Run.Related (Shared.Objects Eq) Eq o.countAct o.countAct :=
    (related_onHeap _).bind fun _ _ _ => Run.related_look fun w w' hw => congrArg (·.counts.getD o.cell 0) hw
  refine hcount.bind fun count count' hcc => ?_
  subst hcc
  extract_lets answering
  have hanswering : ∀ u u', Run.Related (Shared.Objects Eq) (fun v v' => v = v' ∧ v.isObject = false) (answering u)
      (answering u') := by
    intro u u'
    cases answer with
    | error message => exact Run.related_fail _
    | notFound name => exact Run.related_fail _
    | count => exact Run.related_pure ⟨rfl, rfl⟩
    | json value => exact Run.related_pure ⟨rfl, rfl⟩
    | probe p => exact ha.elim
    | object script exposed => exact ha.elim
  have heffects : ∀ h, Run.Related (Shared.Objects Eq) Eq
      (Run.modify fun w => w.modifyRegisters h (effects.foldl Effect.apply) : ObjectRun Heap Unit)
      (Run.modify fun w => w.modifyRegisters h (effects.foldl Effect.apply)) :=
    fun h => Run.related_modify fun _ _ hw => hw
  split
  · exact (heffects _).bind fun u u' _ => hanswering u u'
  · exact hanswering () ()

theorem related_invoke {o : Scripted} (ho : o.script.Blind) (member : String) :
    Run.Related (Shared.Objects Eq) (fun v v' => v = v' ∧ v.isObject = false) (DataModel.invoke o member)
      (DataModel.invoke o member) := by
  show Run.Related _ _ (o.invoke member) (o.invoke member)
  rw [Scripted.invoke]
  refine (related_onHeap _).bind fun _ _ _ => ?_
  split
  · rename_i act hact
    exact o.related_perform member (ho.actFor? member act hact)
  · exact Run.related_fail _

/-- Objects by blind scripts do not consult the registers. -/
theorem oblivious : Oblivious fun o : Scripted => o.script.Blind where
  invoke o ho member := (related_invoke ho member).mono fun _ _ h => h.1
  toOutput o ho := by
    show Run.Related _ _ o.toOutput o.toOutput
    rw [Scripted.toOutput]
    rcases o.script.height with _ | n
    · exact Run.related_pure rfl
    · rw [outputWithin]
      split
      · exact Run.related_pure rfl
      · refine (related_onHeap _).bind fun _ _ _ => ?_
        split
        · exact Run.related_pure rfl
        · rename_i act hact
          refine (o.related_perform _ (ho.output act hact)).bind fun v v' hvv => ?_
          obtain ⟨rfl, hv⟩ := hvv
          cases v with
          | json value => exact Run.related_pure rfl
          | object object => cases hv

theorem gathers_apply {K : String → Prop} (e : Effect) (r : Registers) : r.Gathers K (e.apply r) := by
  cases e with
  | mark => exact bound_gathers.mark r
  | cachingOn => exact bound_gathers.refl r
  | cachingOff => exact bound_gathers.refl r

end Scripted

/-- Objects by blind scripts may have any effects. -/
theorem Context.obliviousWithin_of_blind {ctx : Context Scripted} (K : String → Prop)
    (h : ∀ name, (ctx.lookup name).In fun o => o.script.Blind) : ctx.ObliviousWithin (Registers.Gathers K) := by
  have hc : HybridTemplate.Confined (Registers.Gathers K) ctx.registers fun _ : Scripted => True :=
    Scripted.confined bound_gathers Scripted.gathers_apply
  refine ⟨_, Scripted.oblivious, ⟨fun o _ => hc.invoke o trivial, fun o _ => hc.toOutput o trivial, ?_⟩, h⟩
  intro o ho member w o' ha
  obtain ⟨hans, -⟩ := Scripted.related_invoke ho member w w rfl
  rw [ha] at hans
  cases hans with
  | ok hv => cases hv.2

namespace Sample

/-- An object that counts the visits, behind a layer. -/
def visits : DataObject Scripted :=
  .uncacheable (.bare {
    script := .mk "visits" [("next", .mk [.mark] .count)] none none 0 none false
    cell := 0
    registers := some ⟨0⟩ }) (some ⟨0⟩)

/-- A context with that object. -/
def counting : Context Scripted :=
  { assigns := NameMap.insert ∅ "visits" (.object visits), registers := ⟨0⟩, includeLimit := 8 }

/-- A site with a row that counts a visit, and a table of two rows. -/
def counterTexts : String → Option String
  | "row" => some "No. \x7b\x7b visits.next \x7d\x7d"
  | "table" => some "\x7b% include 'row' %\x7d, \x7b% include 'row' %\x7d"
  | _ => none

/-- The site before any render. -/
def counter : World Heap :=
  { registers := {}, log := [], objects := { counts := [0] }, source := .ofLookup counterTexts, includeDepth := 0 }

/-- The table as a page. -/
def tablePage : Template :=
  ⟨[.inclusion ⟨" ", '\'', "table"⟩]⟩

theorem obliviousWithin_counting (K : String → Prop) : counting.ObliviousWithin (Registers.Gathers K) := by
  refine Context.obliviousWithin_of_blind K fun name => ?_
  rw [counting, Context.lookup, NameMap.get?_insert]
  split
  · rintro o ⟨⟩
    refine ⟨fun member act hact => ?_, fun act hact => by cases hact⟩
    change (List.lookup member [("next", Act.mk [.mark] .count)]).or none = some act at hact
    rw [Option.or_none, List.lookup_cons] at hact
    split at hact
    · cases hact
      exact trivial
    · cases hact
  · rintro o ⟨⟩

/-- An object that writes to the registers when it is accessed, and never reads them. -/
structure Scribe where
  registers : Handle
  write : Registers → Registers

instance : DataModel Scribe Unit where
  setRegisters o h := pure { o with registers := h }
  toRenderable o := pure (.bare o)
  invoke o _ := do
    Run.modify fun w => w.modifyRegisters o.registers o.write
    return .json (.string "Eve")
  toOutput _ := pure ""

theorem oblivious_scribe : Oblivious fun _ : Scribe => True where
  invoke _ _ _ _ _ hw := ⟨.of_eq (fun _ => rfl) rfl, hw⟩
  toOutput _ _ := Run.related_pure rfl

/-- A user that writes to the registers. -/
def writing (write : Registers → Registers) : Context Scribe :=
  { assigns := NameMap.insert ∅ "user" (.object (.uncacheable (.bare ⟨⟨0⟩, write⟩) (some ⟨0⟩)))
    registers := ⟨0⟩
    includeLimit := 8 }

/-- The sample site before a render of objects without a state. -/
def scribbled : World Unit :=
  { registers := {}, log := [], objects := (), source := .ofLookup texts, includeDepth := 0 }

/-- An object that answers another one, which looks up the mode. -/
def basket : Scripted where
  script := .mk "basket" [("owner", .mk [] (.object (.mk "owner" [("mode", .mk [] (.probe .caching))] none none 0 none
    false) true))] none none 0 none false
  cell := 0
  registers := some ⟨0⟩

/-- The object itself looks nothing up. -/
theorem oblivious_basket : Oblivious fun o : Scripted => o = basket where
  invoke := by
    rintro _ rfl member ⟨r, l, objects⟩ ⟨r', l', _⟩ rfl
    by_cases hm : member = "owner"
    · subst hm
      exact ⟨.of_eq (fun _ => rfl) rfl, rfl⟩
    · have hact : basket.script.actFor? member = none := by
        simp [basket, Script.actFor?, List.lookup_cons, beq_false_of_ne hm]
      have hinvoke : DataModel.invoke basket member = (do
          Run.modify (basket.call ("invoke(" ++ member ++ ")"))
          .raise (.object member "no such member") : ObjectRun Heap (Value Scripted)) := by
        show basket.invoke member = _
        rw [Scripted.invoke, hact]
      rw [hinvoke]
      exact ⟨.error _, rfl⟩
  toOutput := by
    rintro _ rfl ⟨r, l, objects⟩ ⟨r', l', _⟩ rfl
    exact ⟨.of_eq (fun _ => rfl) rfl, rfl⟩

/-- The mode of the render, by way of the object that looks it up. -/
def modePage : Template :=
  ⟨[.output ⟨"basket", ["owner", "mode"]⟩]⟩

end Sample

end HybridTemplate
