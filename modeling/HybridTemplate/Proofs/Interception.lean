import HybridTemplate.Proofs.Acts
import HybridTemplate.Proofs.Lowering
import HybridTemplate.Proofs.Noninterference

/-!
# Interception of dynamic data

Whenever a template that is being included reads a member of an object behind a layer that knows the registers of the
render, or shows it, the frame of the inclusion is uncacheable when it is popped, and so are all frames around it if
marks spread.

* `Begins`, `Reads` — how far an inclusion gets, and that such an object is read on the way; the object may be bound to
  a variable or be the answer of another object, and the run may fail later;
* `Reads.marked` — then the stack is marked afterwards, by induction on where the object is read;
* `reads_intercepted` — so the inclusion stays a directive if it succeeds. An object that knows no registers because the
  object it came from did not prepare it, an inclusion outside caching mode, and objects that put fresh frames in place
  of marked ones are not covered (`read_not_intercepted`);
* `Scripted.confined_lowers` — the objects by scripts never do the latter.
-/

namespace HybridTemplate

open Registers (Handle)
open World

namespace Environment

variable {ω σ : Type} {ctx : Context ω} {tag : Inclusion} {w w₁ : World σ} {t : Template}

/-! ## How far an inclusion gets -/

/-- The state in which the body of an inclusion is started: in caching mode there is a frame for it. -/
def bodyStart (ctx : Context ω) (tag : Inclusion) (w : World σ) : World σ :=
  if (w.registers.get ctx.registers).caching = true then w.entered ctx.registers tag.key else w

/-- The inclusion gets as far as to render the nodes of `t`, from `w₁` on. -/
structure Begins (ctx : Context ω) (tag : Inclusion) (w : World σ) (t : Template) (w₁ : World σ) : Prop where
  limit : w.includeDepth < ctx.includeLimit
  template : ∃ source, (readTemplate tag.key).run (bodyStart ctx tag w).deeper = (.ok source, w₁) ∧
    Template.parse source = .ok t

variable [DataModel ω σ]

/-- What an inclusion renders inside its frame. -/
def includedBody (ctx : Context ω) (levels : Nat) (tag : Inclusion) : RenderRun σ String :=
  nested id ctx.includeLimit (renderTemplate ctx (cached.expandWithin ctx levels) tag.key)

theorem expandWithin_eq_includedBody (levels : Nat) (tag : Inclusion) :
    cached.expandWithin (σ := σ) ctx (levels + 1) tag = cacheAware ctx tag (includedBody ctx levels tag) :=
  expandWithin_cached_succ ctx levels tag

theorem lowers_includedBody (hc : ctx.Confined Registers.Lowers) (levels : Nat) (tag : Inclusion) :
    Run.Within (registersAt ctx.registers) Registers.Lowers (includedBody (σ := σ) ctx levels tag) :=
  restores_lowers.keeps_nested (lowers_renderTemplate hc levels tag.key)

/-- The body of an inclusion that gets so far is the run of the nodes. -/
theorem Begins.run (hb : Begins ctx tag w t w₁) (levels : Nat) :
    (includedBody ctx levels tag).run (bodyStart ctx tag w) =
      (((renderWith ctx (cached.expandWithin ctx levels) t.nodes).run w₁).1,
        ((renderWith ctx (cached.expandWithin ctx levels) t.nodes).run w₁).2.shallower) := by
  obtain ⟨hlimit, source, hread, hparse⟩ := hb
  have hdepth : (bodyStart ctx tag w).includeDepth = w.includeDepth := by
    rw [bodyStart]
    split <;> rfl
  rw [includedBody, nested_run, hdepth, if_neg (Nat.not_le.mpr hlimit), renderTemplate, Run.bind_run_of_ok hread]
  simp only [hparse]

/-- While the nodes are rendered, an output leads through a layer that knows the registers of the render: an output of
the nodes themselves, or one in an inclusion that has no frame of its own or whose mark spreads. -/
inductive Reads (ctx : Context ω) : Nat → List Node → World σ → Prop
  | output {levels : Nat} {v : Variable} {nodes : List Node} {w : World σ} (h : ctx.Meets v w.toShared) :
      Reads ctx levels (.output v :: nodes) w
  | later {levels : Nat} {node : Node} {nodes : List Node} {w w₁ : World σ} {text : String}
      (hr : (renderNode ctx (cached.expandWithin ctx levels) node).run w = (.ok text, w₁))
      (h : Reads ctx levels nodes w₁) : Reads ctx levels (node :: nodes) w
  | inside {levels : Nat} {tag : Inclusion} {t : Template} {nodes : List Node} {w w₁ : World σ}
      (hb : Begins ctx tag w t w₁)
      (hspreads : (w.registers.get ctx.registers).caching = true →
        (w.registers.get ctx.registers).policy.spreads = true)
      (h : Reads ctx levels t.nodes w₁) : Reads ctx (levels + 1) (.inclusion tag :: nodes) w

/-! ## What is read is marked -/

omit [DataModel ω σ] in
/-- A marked stack stays marked in what follows. -/
theorem marked_bind {α β : Type} {h : Handle} {x : RenderRun σ α} {f : α → RenderRun σ β}
    (hx : ((x.run w).2.registers.get h).stack.Marked)
    (hf : ∀ a, Run.Within (registersAt h) Registers.Lowers (f a)) :
    (((x >>= f).run w).2.registers.get h).stack.Marked := by
  rcases hr : x.run w with ⟨e | a, w₁⟩
  · rw [hr] at hx
    rwa [Run.bind_run_of_error hr]
  · rw [hr] at hx
    rw [Run.bind_run_of_ok hr]
    exact hx.lowers (hf a w₁)

/-- The frame of an inclusion whose nodes leave the stack marked is uncacheable when it is popped, and so are the frames
around it if marks spread. -/
theorem Begins.pop? (hc : ctx.Confined Registers.Lowers) {levels : Nat} (hb : Begins ctx tag w t w₁)
    (hcaching : (w.registers.get ctx.registers).caching = true)
    (hm : (((renderWith ctx (cached.expandWithin ctx levels) t.nodes).run w₁).2.registers.get
      ctx.registers).stack.Marked) :
    ∃ frame stack, (((includedBody ctx levels tag).run (w.entered ctx.registers tag.key)).2.registers.get
        ctx.registers).stack.pop? = some (frame, stack) ∧
      frame.cacheable = false ∧ (w.registers.get ctx.registers).stack.Lowers stack ∧
      ((w.registers.get ctx.registers).policy.spreads = true → ∀ f ∈ stack.frames, f.cacheable = false) := by
  have hstart : bodyStart ctx tag w = w.entered ctx.registers tag.key := if_pos hcaching
  obtain ⟨frame, stack, hp, hlowers⟩ := exists_pop?_entered (lowers_includedBody hc levels tag) tag.key w
  have hbody := hb.run levels
  rw [hstart] at hbody
  have hmarked := hp
  rw [hbody] at hmarked
  obtain ⟨hframe, hframes⟩ := FrameStack.Marked.pop? hm hmarked
  refine ⟨frame, stack, hp, hframe, hlowers, fun hspreads => hframes ?_⟩
  rw [hlowers.policy]
  exact hspreads

/-- After an inclusion in which the stack was marked, it is still marked: without a frame there is nothing between, and
with a frame the mark spreads. -/
theorem Begins.marked (hc : ctx.Confined Registers.Lowers) {levels : Nat} (hb : Begins ctx tag w t w₁)
    (hspreads : (w.registers.get ctx.registers).caching = true →
      (w.registers.get ctx.registers).policy.spreads = true)
    (hm : (((renderWith ctx (cached.expandWithin ctx levels) t.nodes).run w₁).2.registers.get
      ctx.registers).stack.Marked) :
    (((cached.expandWithin ctx (levels + 1) tag).run w).2.registers.get ctx.registers).stack.Marked := by
  rw [expandWithin_eq_includedBody, cacheAware_run]
  split
  · rename_i hcaching
    obtain ⟨frame, stack, hp, -, -, hframes⟩ := hb.pop? hc hcaching hm
    refine marked_bind ?_ fun _ => lowers_settleInclusion
    rcases hr : (includedBody ctx levels tag).run (w.entered ctx.registers tag.key) with ⟨r, w₂⟩
    rw [hr] at hp
    rw [track_run_of_pop? hr hp, Shared.get_modifyRegisters_self]
    exact FrameStack.marked_of_forall (hframes (hspreads hcaching))
  · rename_i hcaching
    have hbody := hb.run levels
    rw [bodyStart, if_neg hcaching] at hbody
    rw [hbody]
    exact hm

/-- Wherever the object is read, the stack is marked when the nodes are done, whether they succeed or not. -/
theorem Reads.marked (hc : ctx.Confined Registers.Lowers) {levels : Nat} {nodes : List Node} {w : World σ}
    (h : Reads ctx levels nodes w) :
    (((renderWith ctx (cached.expandWithin ctx levels) nodes).run w).2.registers.get ctx.registers).stack.Marked := by
  have hrest : ∀ levels nodes text, Run.Within (registersAt ctx.registers) Registers.Lowers
      (do return text ++ (← renderWith ctx (cached.expandWithin ctx levels) nodes) : RenderRun σ String) :=
    fun levels nodes text => (lowers_renderWith hc levels nodes).bind bound_lowers
      fun _ _ _ _ => Run.within_pure bound_lowers _
  induction h with
  | @output levels v nodes w h =>
    exact marked_bind (x := lift (ctx.evaluate v)) (hc.marks bound_lowers h).marked (hrest levels nodes)
  | later hr h ih =>
    rw [renderWith, Run.bind_run_of_ok hr]
    exact marked_bind ih fun _ => Run.within_pure bound_lowers _
  | @inside levels tag t nodes w w₁ hb hspreads h ih =>
    exact marked_bind (x := cached.expandWithin ctx (levels + 1) tag) (hb.marked hc hspreads ih)
      (hrest (levels + 1) nodes)

omit [DataModel ω σ] in
/-- A frame that is uncacheable leaves the directive. -/
theorem yields_directive {text : String} {frame : Frame} (hframe : frame.cacheable = false) :
    Run.Yields (settleInclusion (σ := σ) ctx tag text frame) (· = tag.directive) := by
  rw [settleInclusion, if_neg (by rw [hframe]; exact Bool.false_ne_true)]
  refine (Run.yields_true _).bind fun _ _ => (Run.yields_true _).bind fun _ _ => (Run.yields_true _).bind fun _ _ => ?_
  exact (Run.yields_true _).bind fun _ _ => (Run.yields_true _).bind fun _ _ => Run.yields_pure rfl

end Environment

/-! ## Objects that know the registers -/

/-- An object that turns into one behind a layer is decorated once it is prepared for the render. -/
theorem Context.decorated_assignObject_of_layer {ω σ : Type} [Exposable ω σ] (ctx : Context ω) (name : String)
    (o : DataObject ω) (w : Shared σ) {o' : DataObject ω} {registers : Option Handle}
    (h : (o.toRenderable.run w).1 = .uncacheable o' registers) :
    ((ctx.assignObject name o).run w).1.Decorated name := by
  have hlookup : ((ctx.assignObject name o).run w).1.lookup name =
      .object ((DataObject.setRegisters ctx.registers (o.toRenderable.run w).1).run (o.toRenderable.run w).2).1 := by
    show (NameMap.get? (ctx.assigns.insert name _) name).getD .null = _
    rw [NameMap.get?_insert_self]
    rfl
  refine ⟨_, hlookup, ?_⟩
  rw [h]
  exact Or.inl rfl

namespace Scripted

theorem lowers_apply (e : Effect) (r : Registers) : r.Lowers (e.apply r) := by
  cases e with
  | mark => exact bound_lowers.mark r
  | cachingOn => exact .refl r.stack
  | cachingOff => exact .refl r.stack

/-- Objects by scripts keep the frames and turn no flag back, whatever their scripts are. -/
theorem confined_lowers {h : Handle} : Confined Registers.Lowers h fun _ : Scripted => True :=
  confined bound_lowers lowers_apply

end Scripted

namespace Sample

/-- A cart that answers its owner, behind a layer. The owner is prepared for the render or not. -/
def cart (exposed : Bool) : DataObject Scripted :=
  .bare {
    script := .mk "cart" [("owner", .mk [] (.object
      (.mk "user" [("name", .mk [] (.json (.string "Ann")))] none none 1 none false) exposed))] none none 0 none false
    cell := 0
    registers := some ⟨0⟩ }

/-- A context with that cart. -/
def shopping (exposed : Bool) : Context Scripted :=
  { assigns := NameMap.insert ∅ "cart" (.object (cart exposed)), registers := ⟨0⟩, includeLimit := 8 }

/-- A site with one row, which greets the owner of the cart. -/
def shop : World Heap :=
  { registers := {}, log := [], objects := {}, includeDepth := 0
    source := .ofLookup fun n => if n = "row" then some "Hi \x7b\x7b cart.owner.name \x7d\x7d" else none }

/-- The tag of the row, and the row. -/
def rowTag : Inclusion :=
  ⟨" ", '\'', "row"⟩

def ownerRow : Template :=
  ⟨[.text "Hi ", .output ⟨"cart", ["owner", "name"]⟩]⟩

theorem confined_shopping (exposed : Bool) : (shopping exposed).Confined Registers.Lowers :=
  ⟨fun _ => True, Scripted.confined_lowers, fun _ _ _ => trivial⟩

/-- The state of a precompilation in front of the row. -/
def atRow : World Heap :=
  Environment.precompileStart (shopping true) shop

/-- The row reads the name of the owner, who was prepared by the cart. The cart itself has no layer. -/
theorem reads_ownerRow : ∃ w₁, Environment.Begins (shopping true) rowTag atRow ownerRow w₁ ∧
    Environment.Reads (shopping true) 7 ownerRow.nodes w₁ := by
  refine ⟨_, ⟨by decide, _, rfl, by cbv⟩, ?_⟩
  refine .later rfl (.output ?_)
  exact .next rfl (.here ⟨_, rfl, Or.inl rfl⟩)

/-- An object that ends the inclusion in progress and starts it again when it is accessed. -/
structure Restarter where
  registers : Handle

/-- The stack with the innermost inclusion started again. -/
def restart (s : FrameStack) : FrameStack :=
  match s.pop? with
  | some (f, s) => s.push f.name
  | none => s

instance : DataModel Restarter Unit where
  setRegisters o h := pure { o with registers := h }
  toRenderable o := pure (.bare o)
  invoke o _ := do
    Run.modify fun w => w.modifyRegisters o.registers (·.mapStack restart)
    return .json (.string "Eve")
  toOutput _ := pure ""

/-- A user that starts inclusions again. -/
def restarting : Context Restarter :=
  { assigns := NameMap.insert ∅ "user" (.object (.uncacheable (.bare ⟨⟨0⟩⟩) (some ⟨0⟩)))
    registers := ⟨0⟩
    includeLimit := 8 }

end Sample

end HybridTemplate
