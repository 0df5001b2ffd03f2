import HybridTemplate.Proofs.Course
import HybridTemplate.Proofs.Modes
import HybridTemplate.Proofs.Noninterference

/-!
# The stack of frames mirrors the inclusions in progress

In caching mode the frames on the stack and the depth of inclusions are counted apart: the frame is pushed by the layer
around the native strategy, and the depth goes up within it. At every moment of a render the two agree, and the frames
carry the names of the inclusions in progress.

* `Registers.KeepsNames` — objects that do not leave caching mode and that leave the frames in place. They may mark them
  and record names on them, and write artifacts;
* `World.Mirrors` — the mode is on, and the frames are those of the inclusions in progress. `Ends.mirrors` is the step:
  an inclusion takes off the frame that it put on, whichever way it ends;
* `Value.Asks` — the states in which objects are asked while a path is followed;
* `Course.mirrors` — the frames mirror the inclusions at all moments of a course, by induction on it;
* `tracker_mirrors` — what this says of renders and of precompilations, also of the states in which objects are asked.
-/

namespace HybridTemplate

open Registers (Handle)
open World

/-! ## Objects that leave the frames in place -/

/-- Caching mode is not left, and the frames have the same names. -/
structure Registers.KeepsNames (r r' : Registers) : Prop where
  caching : r.caching = true → r'.caching = true
  names : r'.stack.frames.map Frame.name = r.stack.frames.map Frame.name

theorem Registers.bound_keepsNames : Bound Registers.KeepsNames where
  refl _ := ⟨id, rfl⟩
  trans h₁ h₂ := ⟨h₂.caching ∘ h₁.caching, h₂.names.trans h₁.names⟩
  mark r := ⟨id, r.stack.map_name_mark⟩

section

variable {ω σ : Type}

/-- In these registers the mode is on, and the frames have the names, innermost first. -/
structure World.Mirrors (h : Handle) (names : List String) (w : World σ) : Prop where
  caching : (w.registers.get h).caching = true
  names : (w.registers.get h).stack.frames.map Frame.name = names

variable {h : Handle} {names : List String} {w u w' : World σ}

theorem World.Mirrors.keeps (hw : Mirrors h names w) (hk : (w.registersAt h).KeepsNames (w'.registersAt h)) :
    Mirrors h names w' :=
  ⟨hk.caching hw.caching, hk.names.trans hw.names⟩

theorem World.Mirrors.deeper (hw : Mirrors h names w) : Mirrors h names w.deeper :=
  ⟨hw.caching, hw.names⟩

theorem World.Mirrors.shallower (hw : Mirrors h names w) : Mirrors h names w.shallower :=
  ⟨hw.caching, hw.names⟩

theorem World.Mirrors.entered (hw : Mirrors h names w) (name : String) :
    Mirrors h (name :: names) (w.entered h name) := by
  constructor
  · rw [World.entered, Shared.get_modifyRegisters_self]
    exact hw.caching
  · rw [World.entered, Shared.get_modifyRegisters_self]
    exact congrArg (name :: ·) hw.names

/-- The innermost frame can be taken off, and beneath it are the others. -/
theorem World.Mirrors.popped {name : String} {frame : Frame} {stack : FrameStack} (hu : Mirrors h (name :: names) u)
    (hp : (u.registers.get h).stack.pop? = some (frame, stack)) : Mirrors h names (u.popped h stack) := by
  have hnames := hu.names
  unfold FrameStack.pop? at hp
  split at hp
  · cases hp
  · rename_i f fs hframes
    cases hp
    rw [hframes] at hnames
    refine ⟨?_, ?_⟩
    · rw [World.popped, Shared.get_modifyRegisters_self]
      exact hu.caching
    · rw [World.stack_popped]
      exact (List.cons.inj hnames).2

variable {ctx : Context ω} {tag : Inclusion} {r : Rendered}

/-- An inclusion takes off the frame that it put on, whichever way it ends. -/
theorem Ends.mirrors {name : String} {e : Except (Failure RenderError) Ending} (h : Ends ctx tag w r u e w')
    (hcaching : (w.registers.get ctx.registers).caching = true) (hu : Mirrors ctx.registers (name :: names) u) :
    Mirrors ctx.registers names w' := by
  cases h with
  | untracked hplain => exact absurd (hcaching.symm.trans hplain) (Bool.noConfusion)
  | underflow _ hp =>
    rw [FrameStack.pop?_eq_none_iff] at hp
    have hnames := hu.names
    rw [hp] at hnames
    cases hnames
  | failed _ _ hp => exact hu.popped hp
  | @frozen text frame stack _ _ hp =>
    obtain ⟨hmode, hnames⟩ := hu.popped hp
    constructor
    · rw [Shared.get_modifyRegisters_self]
      exact hmode
    · rw [Shared.get_modifyRegisters_self]
      exact (FrameStack.map_name_recordInlined _ frame).trans hnames
  | withheld _ _ hp =>
    obtain ⟨hmode, hnames⟩ := hu.popped hp
    exact ⟨hmode, hnames⟩
  | deferred _ _ hp =>
    obtain ⟨hmode, hnames⟩ := hu.popped hp
    constructor
    · rw [Shared.get_modifyRegisters_self]
      exact hmode
    · rw [Shared.get_modifyRegisters_self]
      exact hnames

theorem Environment.mirrors_of_closes {name : String} {e : Rendered}
    (hend : Environment.cached.Closes ctx tag w r u e w') (hw : Mirrors ctx.registers names w)
    (hu : Mirrors ctx.registers (name :: names) u) : Mirrors ctx.registers names w' := by
  unfold Environment.Closes Environment.cached at hend
  simp only [runLayers, cacheAware_eq_map_answer, Run.map_run] at hend
  rcases hx : (endInclusion ctx tag (Run.ended r u)).run w with ⟨e', w₁⟩
  rw [hx] at hend
  obtain ⟨-, rfl⟩ := Prod.mk.inj hend
  have hbody : (Run.ended r u).run (bodyStart ctx tag w) = (r, u) := rfl
  exact (endInclusion_ends hbody hx).mirrors hw.caching hu

theorem Environment.opened_of_caching (h : (w.registers.get ctx.registers).caching = true) :
    cached.opened ctx tag w = w.entered ctx.registers tag.key :=
  if_pos h

theorem Environment.opened_of_plain (h : (w.registers.get ctx.registers).caching = false) :
    cached.opened ctx tag w = w :=
  if_neg (ne_true_of_eq_false h)

theorem Environment.mirrors_opened (tag : Inclusion) (hw : Mirrors ctx.registers names w) :
    Mirrors ctx.registers (tag.key :: names) (Environment.cached.opened ctx tag w) := by
  rw [opened_of_caching hw.caching]
  exact hw.entered tag.key

end

/-! ## Where objects are asked -/

section

variable {ω σ : Type} [DataModel ω σ] {S : Registers → Registers → Prop} {h : Handle} {held : ω → Prop}

/-- While the path from the value is followed from `w`, the object is asked in this state: for a member or for its
text. -/
inductive Value.Asks : List String → Value ω → Shared σ → ω → Shared σ → Prop
  | member {key : String} {keys : List String} {o : DataObject ω} {w : Shared σ} :
      Asks (key :: keys) (.object o) w o.core (o.inward key w)
  | text {o : DataObject ω} {w : Shared σ} : Asks [] (.object o) w o.core (o.inward "to_output" w)
  | later {key : String} {keys : List String} {v v' : Value ω} {w w₁ u : Shared σ} {o : ω}
      (hr : (v.get key).run w = (.ok v', w₁)) (h : Asks keys v' w₁ o u) : Asks (key :: keys) v w o u

/-- While the output is evaluated from `w`, the object is asked in this state. -/
def Context.Asks (ctx : Context ω) (v : Variable) : Shared σ → ω → Shared σ → Prop :=
  (ctx.lookup v.name).Asks v.members

/-- Whatever happened on the path, it kept within the bound. -/
theorem Value.Asks.within (hS : Bound S) (hc : Confined S h held) {keys : List String} {v : Value ω} {w u : Shared σ}
    {o : ω} (ha : v.Asks keys w o u) (hv : v.In held) : S (w.registersAt h) (u.registersAt h) := by
  induction ha with
  | member => exact DataObject.within_inward hS _ _ _
  | text => exact DataObject.within_inward hS _ _ _
  | @later key keys v v' w w₁ u o hr _ ih =>
    have hget := within_get hS hc hv key w
    rw [hr] at hget
    exact hS.trans hget (ih (in_get hc hv hr))

theorem Context.Asks.within {ctx : Context ω} (hS : Bound S) (hc : ctx.Confined S) {v : Variable} {w u : Shared σ}
    {o : ω} (ha : ctx.Asks v w o u) : S (w.registersAt ctx.registers) (u.registersAt ctx.registers) := by
  obtain ⟨held, hheld, hin⟩ := hc
  exact Value.Asks.within hS hheld ha (hin v.name)

end

/-! ## Courses -/

section

variable {ω σ : Type}

/-- Of a render that started at the depth `d`: from the outermost one inwards the frames have the names of the
inclusions in progress, and there are as many as the render is deeper now. -/
structure Moment.Mirrored (h : Handle) (d : Nat) (m : Moment σ) : Prop where
  names : (m.world.registers.get h).stack.fromOutermost.map Frame.name = m.inside.reverse
  depth : (m.world.registers.get h).depth = m.world.includeDepth - d

/-- The same moment with the shared state of another one. -/
def Moment.at (m : Moment σ) (u : Shared σ) : Moment σ :=
  { m with world := { m.world with toShared := u } }

/-- The stack mirrors the inclusions at this moment, and whenever an object is asked before the next one. -/
structure Moment.Mirroring [DataModel ω σ] (ctx : Context ω) (d : Nat) (m : Moment σ) : Prop where
  mirrored : m.Mirrored ctx.registers d
  asked : ∀ v, m.node? = some (.output v) → ∀ o u, ctx.Asks v m.world.toShared o u → (m.at u).Mirrored ctx.registers d

variable {ctx : Context ω} {d : Nat} {m : Moment σ}

theorem World.Mirrors.mirrored (hm : m.world.Mirrors ctx.registers m.inside)
    (hdepth : m.world.includeDepth = d + m.inside.length) : m.Mirrored ctx.registers d := by
  constructor
  · rw [FrameStack.fromOutermost, List.map_reverse, hm.names]
  · have hlength := congrArg List.length hm.names
    rw [List.length_map] at hlength
    show (m.world.registers.get ctx.registers).stack.frames.length = _
    omega

end

namespace Environment

variable {ω σ : Type} [DataModel ω σ] {ctx : Context ω} {inside : List String} {nodes : List Node} {w w' : World σ}
  {ms : List (Moment σ)} {r : Rendered}

theorem mirrors_evaluate (hc : ctx.Confined Registers.KeepsNames) {v : Variable}
    (hv : (lift (ctx.evaluate v)).run w = (r, w')) (hw : w.Mirrors ctx.registers inside) :
    w'.Mirrors ctx.registers inside := by
  have hkeeps := hc.within Registers.bound_keepsNames v w.toShared
  obtain ⟨-, rfl⟩ := Prod.mk.inj hv
  exact hw.keeps hkeeps

omit [DataModel ω σ] in
theorem Enters.mirrors {tag : Inclusion} {t : Template} {w w₁ : World σ} (h : Enters ctx tag w t w₁)
    (hw : w.Mirrors ctx.registers inside) : w₁.Mirrors ctx.registers inside := by
  rw [h.state]
  exact ⟨hw.caching, hw.names⟩

omit [DataModel ω σ] in
theorem Misses.mirrors {tag : Inclusion} {read : Bool} {f : Failure RenderError} {w u : World σ}
    (h : Misses ctx tag w read f u) (hw : w.Mirrors ctx.registers inside) : u.Mirrors ctx.registers inside := by
  obtain ⟨s, rfl, -⟩ := h.state
  exact ⟨hw.caching, hw.names⟩

/-- At every moment the frames are those of the inclusions in progress, and so they are afterwards. -/
theorem Course.mirrors (h : Course cached ctx inside nodes w ms r w') (hc : ctx.Confined Registers.KeepsNames)
    (hw : w.Mirrors ctx.registers inside) :
    w'.Mirrors ctx.registers inside ∧ ∀ m ∈ ms, m.world.Mirrors ctx.registers m.inside := by
  induction h with
  | nil => exact ⟨hw, List.forall_mem_nil _⟩
  | text _ ih =>
    obtain ⟨hend, hms⟩ := ih hw
    exact ⟨hend, List.forall_mem_cons.mpr ⟨hw, hms⟩⟩
  | output hv _ ih =>
    obtain ⟨hend, hms⟩ := ih (mirrors_evaluate hc hv hw)
    exact ⟨hend, List.forall_mem_cons.mpr ⟨hw, hms⟩⟩
  | outputFails hv => exact ⟨mirrors_evaluate hc hv hw, List.forall_mem_singleton.mpr hw⟩
  | @inclusion inside tag t nodes w w₁ w₂ w₃ w' ms ms' r r' text hb _ hend _ ihb ih =>
    have hopened := mirrors_opened tag hw
    obtain ⟨hbody, hms⟩ := ihb (hb.mirrors hopened)
    obtain ⟨hend, hms'⟩ := ih (mirrors_of_closes hend hw hbody.shallower)
    refine ⟨hend, List.forall_mem_cons.mpr ⟨hw, List.forall_mem_cons.mpr ⟨hopened.deeper, ?_⟩⟩⟩
    exact List.forall_mem_append.mpr ⟨hms, hms'⟩
  | @inclusionFails inside tag t nodes w w₁ w₂ w' ms r f hb _ hend ihb =>
    have hopened := mirrors_opened tag hw
    obtain ⟨hbody, hms⟩ := ihb (hb.mirrors hopened)
    exact ⟨mirrors_of_closes hend hw hbody.shallower,
      List.forall_mem_cons.mpr ⟨hw, List.forall_mem_cons.mpr ⟨hopened.deeper, hms⟩⟩⟩
  | @stopped inside tag nodes w u w' read f f' hb hend =>
    have hopened := mirrors_opened tag hw
    refine ⟨mirrors_of_closes hend hw (hb.mirrors hopened), List.forall_mem_cons.mpr ⟨hw, ?_⟩⟩
    cases read with
    | true => exact List.forall_mem_singleton.mpr hopened.deeper
    | false => exact List.forall_mem_nil _

/-- The course of a whole render: the frames mirror the inclusions all along, and none is left. -/
theorem Course.mirroring (h : Course cached ctx [] nodes w ms r w') (hc : ctx.Confined Registers.KeepsNames)
    (hw : w.Mirrors ctx.registers []) :
    (∀ m ∈ ms, m.Mirroring ctx w.includeDepth) ∧ (w'.registers.get ctx.registers).stack.isEmpty = true := by
  obtain ⟨hend, hms⟩ := h.mirrors hc hw
  constructor
  · intro m hm
    have hdepth := h.depth_add direct_cached hm
    have hmirrors := hms m hm
    refine ⟨hmirrors.mirrored hdepth, fun v _ o u ha => ?_⟩
    have hasked : (m.at u).world.Mirrors ctx.registers (m.at u).inside :=
      hmirrors.keeps (ha.within Registers.bound_keepsNames hc)
    exact hasked.mirrored hdepth
  · exact List.isEmpty_iff.mpr (List.map_eq_nil_iff.mp hend.names)

/-- In caching mode the frames mirror the inclusions in progress at every moment of a render, and at its end the stack
is empty. The same holds of a precompilation, of its nodes as well as when it has ended. -/
theorem tracker_mirrors (hc : ctx.Confined Registers.KeepsNames) (t : Template) (w : World σ) :
    ((w.registers.get ctx.registers).caching = true →
      ∃ ms r w', Course cached ctx [] t.nodes (renderStart ctx w) ms r w' ∧
        (cached.render ctx t).run w = (r, { w' with toShared := w'.toShared.report .renderEnded }) ∧
        (∀ m ∈ ms, m.Mirroring ctx w.includeDepth) ∧
        (((cached.render ctx t).run w).2.registers.get ctx.registers).stack.isEmpty = true) ∧
    ∃ ms r w', Course cached ctx [] t.nodes (precompileStart ctx w) ms r w' ∧
      (cached.renderNodes ctx t).run (precompileStart ctx w) = (r, w') ∧
      (∀ m ∈ ms, m.Mirroring ctx w.includeDepth) ∧ (w'.registers.get ctx.registers).stack.isEmpty = true ∧
      (((cached.precompile ctx t).run w).2.registers.get ctx.registers).stack.isEmpty = true := by
  constructor
  · intro hcaching
    have hstart : (renderStart ctx w).Mirrors ctx.registers [] := by
      constructor
      · rw [get_renderStart]
        exact hcaching
      · rw [get_renderStart]
        rfl
    obtain ⟨ms, r, w', h⟩ := exists_course direct_cached ctx [] t.nodes (renderStart ctx w)
    obtain ⟨hms, hend⟩ := h.mirroring hc hstart
    have hrun := h.render direct_cached
    refine ⟨ms, r, w', h, hrun, hms, ?_⟩
    rw [hrun]
    exact hend
  · have hstart : (precompileStart ctx w).Mirrors ctx.registers [] := by
      constructor
      · rw [get_precompileStart]
        rfl
      · rw [get_precompileStart]
        rfl
    obtain ⟨ms, r, w', h⟩ := exists_course direct_cached ctx [] t.nodes (precompileStart ctx w)
    obtain ⟨hms, hend⟩ := h.mirroring hc hstart
    have hrun := h.run direct_cached
    rw [← renderNodes_run] at hrun
    refine ⟨ms, r, w', h, hrun, hms, hend, ?_⟩
    have hcleared : ((precompileEnd ctx (w.registers.get ctx.registers).caching w').registers.get
        ctx.registers).stack.isEmpty = true := by
      rw [get_precompileEnd]
      rfl
    cases r with
    | error f =>
      rw [precompile_run_of_error hrun]
      exact hcleared
    | ok source =>
      obtain ⟨event, hrun⟩ := precompile_run_of_ok hrun
      rw [hrun]
      exact hcleared

end Environment

/-! ## Leaving caching mode on the way -/

namespace Sample

/-- Ann is asked for her name within each of the two rows. -/
theorem tracker_mirrors_rows :
    (∃ ms r w', Environment.Course .cached (context "Ann") [] rows.nodes
        (Environment.renderStart (context "Ann") (world.inMode ⟨0⟩ true)) ms r w' ∧
      (Environment.cached.render (context "Ann") rows).run (world.inMode ⟨0⟩ true) =
        (r, { w' with toShared := w'.toShared.report .renderEnded }) ∧
      ∀ m ∈ ms, m.Mirroring (context "Ann") 0) ∧
    ∃ ms r w', Environment.Course .cached (context "Ann") [] rows.nodes
        (Environment.precompileStart (context "Ann") world) ms r w' ∧
      (∀ m ∈ ms, m.Mirroring (context "Ann") 0) ∧ (w'.registers.get ⟨0⟩).stack.isEmpty = true := by
  have hc : (context "Ann").Confined Registers.KeepsNames := (pure_context "Ann").1.confined Registers.bound_keepsNames
  obtain ⟨ms, r, w', hcourse, hrun, hms, -⟩ :=
    (Environment.tracker_mirrors hc rows (world.inMode ⟨0⟩ true)).1 (by cbv)
  obtain ⟨ns, e, u, hcourse', -, hns, hempty, -⟩ := (Environment.tracker_mirrors hc rows world).2
  exact ⟨⟨ms, r, w', hcourse, hrun, hms⟩, ns, e, u, hcourse', hns, hempty⟩

/-- What a row of the sample site is. -/
def greetingRow : Template :=
  ⟨[.text "Hi ", .output ⟨"user", ["name"]⟩, .inclusion ⟨" ", '\'', "foot"⟩]⟩

/-- A render in caching mode of that page, for a user who leaves this mode when she is named. -/
def quitStart : World Heap :=
  Environment.renderStart (quitting "Ann") (world.inMode ⟨0⟩ true)

/-- The state of this render ahead of the row. -/
def quitNamed : World Heap :=
  ((lift ((quitting "Ann").evaluate ⟨"user", ["name"]⟩)).run quitStart).2

theorem run_quitStart :
    (lift ((quitting "Ann").evaluate ⟨"user", ["name"]⟩)).run quitStart = (.ok "Ann", quitNamed) :=
  Prod.ext (by cbv) rfl

/-- The row gets no frame. -/
theorem opened_quitNamed :
    Environment.cached.opened (quitting "Ann") ⟨" ", '\'', "row"⟩ quitNamed = quitNamed := by
  have hmode : (quitNamed.registers.get (quitting "Ann").registers).caching = false := by cbv
  exact Environment.opened_of_plain hmode

theorem enters_quitNamed : ∃ w₁, Environment.Enters (quitting "Ann") ⟨" ", '\'', "row"⟩ quitNamed greetingRow w₁ :=
  ⟨_, by decide, _, rfl, by cbv⟩

/-- Without the premise on the objects the stack need not mirror the inclusions: the user is asked for her name within
the row, and there is no frame. -/
theorem render_greeting_untracked :
    ((world.inMode ⟨0⟩ true).registers.get (quitting "Ann").registers).caching = true ∧
    ∃ ms r w', Environment.Course .cached (quitting "Ann") [] greeting.nodes quitStart ms r w' ∧
      ∃ m ∈ ms, m.node? = some (.output ⟨"user", ["name"]⟩) ∧ ¬m.Mirrored (quitting "Ann").registers 0 := by
  refine ⟨by cbv, ?_⟩
  obtain ⟨w₁, hb⟩ := enters_quitNamed
  obtain ⟨ms, r, w₂, hbody⟩ := Environment.exists_course Environment.direct_cached (quitting "Ann") ["row"]
    [.output ⟨"user", ["name"]⟩, .inclusion ⟨" ", '\'', "foot"⟩] w₁
  have hnot : ¬(⟨["row"], some (.output ⟨"user", ["name"]⟩), w₁⟩ : Moment Heap).Mirrored ⟨0⟩ 0 := by
    intro h
    have hnone : (quitNamed.registers.get ⟨0⟩).stack.fromOutermost = [] := by cbv
    have hnames := h.names
    rw [show w₁.registers = quitNamed.registers from congrArg (·.registers) hb.state, hnone] at hnames
    cases hnames
  rw [← opened_quitNamed] at hb
  obtain ⟨ms', r', w', hcourse, hsub⟩ := Environment.exists_course_inclusion Environment.direct_cached hb
    (.text hbody) fun u _ => Environment.exists_course Environment.direct_cached (quitting "Ann") [] [] u
  exact ⟨_, _, _, .output run_quitStart hcourse, _,
    List.mem_cons_of_mem _ (hsub _ (List.mem_cons_of_mem _ hbody.first_mem)), rfl, hnot⟩

end Sample

end HybridTemplate
