import HybridTemplate.Proofs.Hybrid
import HybridTemplate.Proofs.Reparse

/-!
# The meaning of a template

Outside caching mode, with objects that answer the same in every state, a render comes down to a function of the catalog
and of what the outputs show.

* `Catalog.meaning`, `meaningWith` — that function, for an inclusion and for nodes; the first error from the left is the
  answer if there is one;
* `Gives` — a run answers as told in every state of a kind, and stays in states of this kind;
* `render_eq_meaning` — a render through the cache-aware layer in the mode without caching is the meaning;
* `Expands.meaning_levels`, `Expands.meaning_plain`, `Expands.meaning_hybrid` — what an expansion in one context says
  about the meaning in another.
-/

namespace HybridTemplate

open Registers (Handle)
open World

/-- A text, or the reason why there is none. -/
abbrev Rendered := Except (Failure RenderError) String

/-! ## Meanings -/

/-- The meaning of a node, with `expand` for the inclusions. -/
def meaningNode (shows : Variable → Rendered) (expand : Inclusion → Rendered) : Node → Rendered
  | .text content => .ok content
  | .output v => shows v
  | .inclusion tag => expand tag

/-- The meaning of nodes one after the other, with `expand` for the inclusions. -/
def meaningWith (shows : Variable → Rendered) (expand : Inclusion → Rendered) : List Node → Rendered
  | [] => .ok ""
  | node :: nodes => do
    let text ← meaningNode shows expand node
    return text ++ (← meaningWith shows expand nodes)

/-- The meaning of an inclusion where `levels` more inclusions are allowed inside one another, down to depth `deep`. -/
def Catalog.meaning (C : Catalog) (shows : Variable → Rendered) (deep : Nat) : Nat → Inclusion → Rendered
  | 0, _ => .error (.error (.nestingTooDeep deep))
  | levels + 1, tag =>
    match C tag.key with
    | .error e => .error (.error (.source e))
    | .ok source =>
      match Template.parse source with
      | .error e => .error (.error (.parse e))
      | .ok t => meaningWith shows (C.meaning shows deep levels) t.nodes

theorem meaningWith_append (shows : Variable → Rendered) (expand : Inclusion → Rendered) (as bs : List Node) :
    meaningWith shows expand (as ++ bs) = do
      let x ← meaningWith shows expand as
      return x ++ (← meaningWith shows expand bs) := by
  induction as with
  | nil =>
    rw [List.nil_append, meaningWith]
    rcases meaningWith shows expand bs with _ | x
    · rfl
    · exact congrArg _ String.empty_append.symm
  | cons a as ih =>
    simp only [List.cons_append, meaningWith, ih]
    rcases meaningNode shows expand a with _ | x
    · rfl
    · rcases meaningWith shows expand as with _ | y
      · rfl
      · rcases meaningWith shows expand bs with _ | z
        · rfl
        · exact congrArg _ String.append_assoc.symm

theorem Catalog.Holds.meaning {C : Catalog} {tag : Inclusion} {t : Template} (h : C.Holds tag.key t)
    (shows : Variable → Rendered) (deep levels : Nat) :
    C.meaning shows deep (levels + 1) tag = meaningWith shows (C.meaning shows deep levels) t.nodes := by
  obtain ⟨source, hs, ht⟩ := h
  rw [Catalog.meaning, hs]
  simp only [ht]

/-! ## Runs that give an answer -/

/-- From every state in `P` the run answers `r` and ends in `P`. -/
def Gives {s ε α : Type} (P : s → Prop) (x : Run s ε α) (r : Except (Failure ε) α) : Prop :=
  ∀ w, P w → (x.run w).1 = r ∧ P (x.run w).2

namespace Gives

variable {s ε α β : Type} {P : s → Prop} {x : Run s ε α} {f : α → Run s ε β} {r : Except (Failure ε) α}
  {g : α → Except (Failure ε) β}

theorem pure (a : α) : Gives P (pure a : Run s ε α) (.ok a) :=
  fun _ hw => ⟨rfl, hw⟩

theorem bind_of_error {e : Failure ε} (hx : Gives P x (.error e)) : Gives P (x >>= f) (.error e) := by
  intro w hw
  obtain ⟨h₁, h₂⟩ := hx w hw
  rw [Run.bind_run_of_error (Prod.ext h₁ rfl)]
  exact ⟨rfl, h₂⟩

theorem bind_of_ok {a : α} {r' : Except (Failure ε) β} (hx : Gives P x (.ok a)) (hf : Gives P (f a) r') :
    Gives P (x >>= f) r' := by
  intro w hw
  obtain ⟨h₁, h₂⟩ := hx w hw
  rw [Run.bind_run_of_ok (Prod.ext h₁ rfl)]
  exact hf _ h₂

theorem bind (hx : Gives P x r) (hf : ∀ a, Gives P (f a) (g a)) : Gives P (x >>= f) (r >>= g) := by
  rcases r with e | a
  · exact hx.bind_of_error
  · exact hx.bind_of_ok (hf a)

end Gives

/-! ## Renders outside caching mode -/

/-- What the outputs show in every state. -/
def Context.Says {ω σ : Type} [DataModel ω σ] (ctx : Context ω) (shows : Variable → Rendered) : Prop :=
  ∀ v, ∃ m, Run.Settles ctx.registers (ctx.evaluate v) (shows v) m

theorem Context.Pure.exists_says {ω σ : Type} [DataModel ω σ] {ctx : Context ω} (hp : ctx.Pure) :
    ∃ shows, ctx.Says shows :=
  ⟨fun v => (hp.settles_decorated v).choose, fun v => (hp.settles_decorated v).choose_spec.imp fun _ hm => hm.1⟩

/-- A state that a context is in over a catalog: its source serves the catalog, the mode is without caching, and there
are `depth` inclusions around. -/
structure Context.Over {ω σ : Type} (ctx : Context ω) (C : Catalog) (depth : Nat) (w : World σ) : Prop where
  serves : w.source.Serves C
  caching : (w.registers.get ctx.registers).caching = false
  depth : w.includeDepth = depth

/-- A state of a render outside caching mode, with `levels` inclusions left before the depth is `deep`. -/
structure Idle {ω σ : Type} (ctx : Context ω) (C : Catalog) (deep levels : Nat) (w : World σ) : Prop where
  serves : w.source.Serves C
  caching : (w.registers.get ctx.registers).caching = false
  depth : w.includeDepth + levels = deep
  limit : ctx.includeLimit ≤ deep
  levels : 0 < levels → deep = ctx.includeLimit

namespace Environment

variable {ω σ : Type} [DataModel ω σ] {ctx : Context ω} {C : Catalog} {shows : Variable → Rendered} {deep levels : Nat}

theorem gives_evaluate (hmeans : ctx.Says shows) (v : Variable) :
    Gives (Idle (σ := σ) ctx C deep levels) (lift (ctx.evaluate v)) (shows v) := by
  intro w hw
  obtain ⟨m, hm⟩ := hmeans v
  obtain ⟨h₁, h₂⟩ := hm w.toShared
  refine ⟨h₁, hw.serves, ?_, hw.depth, hw.limit, hw.levels⟩
  show (((ctx.evaluate v).run w.toShared).2.registers.get ctx.registers).caching = false
  rw [h₂, Registers.caching_absorb, hw.caching]

theorem gives_renderWith (hmeans : ctx.Says shows) {expand : Inclusion → RenderRun σ String}
    {expand' : Inclusion → Rendered} (hx : ∀ tag, Gives (Idle ctx C deep levels) (expand tag) (expand' tag))
    (nodes : List Node) :
    Gives (Idle ctx C deep levels) (renderWith ctx expand nodes) (meaningWith shows expand' nodes) := by
  induction nodes with
  | nil => exact .pure ""
  | cons node nodes ih =>
    refine Gives.bind ?_ fun text => Gives.bind ih fun rest => .pure (text ++ rest)
    cases node with
    | text content => exact .pure content
    | output v => exact gives_evaluate hmeans v
    | inclusion tag => exact hx tag

omit [DataModel ω σ] in
theorem gives_readTemplate (name : String) :
    Gives (Idle (σ := σ) ctx C deep levels) (readTemplate name) (match C name with
      | .ok source => .ok source
      | .error e => .error (.error (.source e))) := by
  intro w hw
  rw [readTemplate_run, hw.serves]
  rcases C name with e | source
  · exact ⟨rfl, hw.serves, hw.caching, hw.depth, hw.limit, hw.levels⟩
  · exact ⟨rfl, hw.serves, hw.caching, hw.depth, hw.limit, hw.levels⟩

omit [DataModel ω σ] in
theorem gives_nested {body : RenderRun σ String} {r : Rendered} (hb : Gives (Idle ctx C deep levels) body r) :
    Gives (Idle ctx C deep (levels + 1)) (nested id ctx.includeLimit body) r := by
  intro w hw
  have hdepth := hw.depth
  have hdeep := hw.levels (Nat.succ_pos levels)
  rw [nested_run, if_neg (by omega)]
  have hdeeper : Idle ctx C deep levels w.deeper :=
    ⟨hw.serves, hw.caching, by simp only [deeper]; omega, hw.limit, fun _ => hdeep⟩
  obtain ⟨hr, hw'⟩ := hb w.deeper hdeeper
  have hdepth' := hw'.depth
  refine ⟨hr, hw'.serves, hw'.caching, ?_, hw.limit, fun _ => hdeep⟩
  simp only [deeper, shallower] at hdepth' ⊢
  omega

omit [DataModel ω σ] in
/-- Outside caching mode the cache-aware layer does nothing. -/
theorem gives_cacheAware {tag : Inclusion} {inner : RenderRun σ String} {r : Rendered}
    (hi : Gives (Idle ctx C deep levels) inner r) : Gives (Idle ctx C deep levels) (cacheAware ctx tag inner) r := by
  intro w hw
  rw [cacheAware, Run.bind_run_of_ok (registersOf_run _ _), if_neg (by rw [hw.caching]; exact Bool.false_ne_true)]
  exact hi w hw

theorem gives_expandWithin (hmeans : ctx.Says shows) (levels : Nat) (tag : Inclusion) :
    Gives (Idle ctx C deep levels) (cached.expandWithin (σ := σ) ctx levels tag) (C.meaning shows deep levels tag) := by
  induction levels generalizing tag with
  | zero =>
    rw [expandWithin_cached_zero]
    refine gives_cacheAware fun w hw => ?_
    have hdepth := hw.depth
    rw [Run.bind_run_of_ok (Run.look_run _ _), ← hdepth]
    exact ⟨rfl, hdepth ▸ hw⟩
  | succ levels ih =>
    rw [expandWithin_cached_succ, Catalog.meaning]
    refine gives_cacheAware (gives_nested ?_)
    have hread : Gives (Idle (σ := σ) ctx C deep levels) (readTemplate tag.key) _ := gives_readTemplate tag.key
    rcases hC : C tag.key with e | source
    · rw [hC] at hread
      exact hread.bind_of_error
    · rw [hC] at hread
      refine hread.bind_of_ok ?_
      dsimp only
      rcases Template.parse source with e | t
      · exact fun w hw => ⟨rfl, hw⟩
      · exact gives_renderWith hmeans ih t.nodes

/-- The state in which a render starts with the nodes. -/
def renderStart (ctx : Context ω) (w : World σ) : World σ :=
  let w := { w with toShared := w.toShared.modifyRegisters ctx.registers Registers.reset }
  { w with toShared := w.toShared.report (.renderStarted (w.registers.get ctx.registers).caching) }

theorem render_run (env : Environment) (ctx : Context ω) (t : Template) (w : World σ) :
    (env.render ctx t).run w = (((env.renderNodes ctx t).run (renderStart ctx w)).1,
      let w' := ((env.renderNodes ctx t).run (renderStart ctx w)).2
      { w' with toShared := w'.toShared.report .renderEnded }) := by
  rw [render, Run.bind_run_of_ok (modifyRegisters_run _ _ _), Run.bind_run_of_ok (registersOf_run _ _),
    Run.bind_run_of_ok (report_run _ _), Run.bind_run_of_ok (Run.attempt_run _ _), Run.bind_run_of_ok (report_run _ _),
    Run.ofExcept_run]
  rfl

theorem renderNodes_run (env : Environment) (ctx : Context ω) (t : Template) (w : World σ) :
    (env.renderNodes ctx t).run w =
      (renderWith ctx (env.expandWithin ctx (ctx.includeLimit - w.includeDepth)) t.nodes).run w :=
  rfl

omit [DataModel ω σ] in
theorem get_renderStart (w : World σ) :
    (renderStart ctx w).registers.get ctx.registers = (w.registers.get ctx.registers).reset :=
  Shared.get_modifyRegisters_self _ _ _

omit [DataModel ω σ] in
theorem idle_renderStart {depth : Nat} {w : World σ} (hw : ctx.Over C depth w) :
    Idle ctx C (max ctx.includeLimit depth) (ctx.includeLimit - depth) (renderStart ctx w) := by
  obtain ⟨hs, hoff, rfl⟩ := hw
  refine ⟨hs, ?_, ?_, ?_, ?_⟩
  · rw [get_renderStart]
    exact hoff
  · show w.includeDepth + _ = _
    omega
  · omega
  · omega

/-- A render answers what its nodes give. -/
theorem render_of_gives {env : Environment} {depth : Nat} {w : World σ} {t : Template} {r : Rendered}
    (hw : ctx.Over C depth w)
    (hg : Gives (Idle ctx C (max ctx.includeLimit depth) (ctx.includeLimit - depth))
      (renderWith ctx (env.expandWithin ctx (ctx.includeLimit - depth)) t.nodes) r) :
    ((env.render ctx t).run w).1 = r := by
  have hstart : Idle ctx C _ _ (renderStart ctx w) := idle_renderStart hw
  obtain rfl := hw.depth
  rw [render_run, renderNodes_run]
  exact (hg _ hstart).1

/-- A render outside caching mode is the meaning of its nodes. -/
theorem render_eq_meaning (hmeans : ctx.Says shows) {depth : Nat} {w : World σ} (hw : ctx.Over C depth w)
    (t : Template) :
    ((cached.render ctx t).run w).1 =
      meaningWith shows (C.meaning shows (max ctx.includeLimit depth) (ctx.includeLimit - depth)) t.nodes :=
  render_of_gives hw (gives_renderWith hmeans (gives_expandWithin hmeans _) t.nodes)

/-- Merged texts make no difference to a render. -/
theorem render_merge (env : Environment) (ctx : Context ω) (nodes : List Node) :
    env.render (σ := σ) ctx ⟨Node.merge [] nodes⟩ = env.render ctx ⟨nodes⟩ := by
  simp only [render, renderNodes, renderWith_merge_nil]

end Environment

/-! ## What an expansion says about meanings -/

namespace Expands

variable {C : Catalog} {R : Variable → String → Bool → Prop} {π : TaintPolicy} {nodes : List Node} {e : Expansion}
  {m : Bool} {shows : Variable → Rendered} {deep deep' l l' : Nat}

/-- An expanded inclusion has a meaning as soon as its height is allowed. -/
theorem meaning_inclusion (shows : Variable → Rendered) (deep : Nat) {tag : Inclusion} {t : Template} {body : Expansion}
    (ht : C.Holds tag.key t) (hl : body.height + 1 ≤ l) : ∃ l', l = l' + 1 ∧ body.height ≤ l' ∧
      C.meaning shows deep l tag = meaningWith shows (C.meaning shows deep l') t.nodes := by
  obtain ⟨l', rfl⟩ : ∃ l', l = l' + 1 := ⟨l - 1, by omega⟩
  exact ⟨l', rfl, by omega, ht.meaning shows deep l'⟩

/-- The levels that are left make no difference as long as the expansion fits. -/
theorem meaning_levels (h : Expands C R π nodes e m) (hl : e.height ≤ l) (hl' : e.height ≤ l') :
    meaningWith shows (C.meaning shows deep l) nodes = meaningWith shows (C.meaning shows deep' l') nodes := by
  induction h generalizing l l' with
  | nil => rfl
  | text _ ih => rw [meaningWith, meaningWith, ih hl hl']; rfl
  | output _ _ ih => rw [meaningWith, meaningWith, ih hl hl']; rfl
  | inclusion ht hb _ ihb ih =>
    obtain ⟨hlb, hlr⟩ := Nat.max_le.mp hl
    obtain ⟨hlb', hlr'⟩ := Nat.max_le.mp hl'
    obtain ⟨k, rfl, hk, hmeaning⟩ := meaning_inclusion shows deep ht hlb
    obtain ⟨k', rfl, hk', hmeaning'⟩ := meaning_inclusion shows deep' ht hlb'
    rw [meaningWith, meaningWith, meaningNode, meaningNode, hmeaning, hmeaning', ihb hk hk', ih hlr hlr']

/-- In the context of the expansion the meaning is its text. -/
theorem meaning_plain (hR : ∀ v x b, R v x b → shows v = .ok x) (h : Expands C R π nodes e m) (hl : e.height ≤ l) :
    meaningWith shows (C.meaning shows deep l) nodes = .ok e.plain := by
  induction h generalizing l with
  | nil => rfl
  | text _ ih => rw [meaningWith, ih hl]; rfl
  | output hv _ ih => rw [meaningWith, meaningNode, hR _ _ _ hv, ih hl]; rfl
  | inclusion ht hb _ ihb ih =>
    obtain ⟨hlb, hlr⟩ := Nat.max_le.mp hl
    obtain ⟨k, rfl, hk, hmeaning⟩ := meaning_inclusion shows deep ht hlb
    rw [meaningWith, meaningNode, hmeaning, ihb hk, ih hlr]
    rfl

/-- In another context the hybrid means what the nodes mean, if that context shows the same for the outputs of the nodes
themselves and for all that do not mark. -/
theorem meaning_hybrid {dynamic : Variable → Prop} (hdynamic : ∀ v x b, R v x b → (b = true ↔ dynamic v))
    (hstatic : ∀ v x, R v x false → shows v = .ok x) (h : Expands C R π nodes e m) (hl : e.height ≤ l)
    (hown : ∀ v x b, .output v ∈ nodes → R v x b → shows v = .ok x) :
    meaningWith shows (C.meaning shows deep l) e.hybrid = meaningWith shows (C.meaning shows deep l) nodes := by
  induction h generalizing l with
  | nil => rfl
  | text _ ih =>
    have hrest := ih hl fun v x b hv => hown v x b (List.mem_cons_of_mem _ hv)
    rw [Expansion.hybrid, meaningWith, meaningWith, hrest]
  | output hv _ ih =>
    have hrest := ih hl fun v x b hv => hown v x b (List.mem_cons_of_mem _ hv)
    rw [Expansion.hybrid, meaningWith, meaningWith, hrest, meaningNode, meaningNode,
      hown _ _ _ List.mem_cons_self hv]
  | @inclusion tag t d body nodes e m ht hb _ ihb ih =>
    obtain ⟨hlb, hlr⟩ := Nat.max_le.mp hl
    have hrest := ih hlr fun v x b hv => hown v x b (List.mem_cons_of_mem _ hv)
    cases d with
    | true => rw [Expansion.hybrid, meaningWith, meaningWith, hrest]
    | false =>
      -- a frozen inclusion has no output of its own that marks
      have hownb : ∀ v x b, .output v ∈ t.nodes → R v x b → shows v = .ok x := by
        intro v x b hv hx
        have hb' : b = false := Bool.eq_false_iff.mpr fun htrue =>
          Bool.false_ne_true ((hb.marks_iff hdynamic).mpr (Or.inl ⟨v, hv, (hdynamic v x b hx).mp htrue⟩))
        subst hb'
        exact hstatic v x hx
      obtain ⟨k, rfl, hk, hmeaning⟩ := meaning_inclusion shows deep ht hlb
      rw [Expansion.hybrid, meaningWith_append, ihb (by omega) hownb, hrest, meaningWith, meaningNode, hmeaning,
        hb.meaning_levels (by omega) hk]

end Expands

end HybridTemplate
