import HybridTemplate.Proofs.Histories
import HybridTemplate.Proofs.Modes

/-!
# Precompiling what was precompiled

A precompilation of a hybrid source meets frozen texts where there were outputs and inclusions, and beneath them nothing
that marks. So each inclusion that is left is deferred once more, and with the same artifacts.

* `Expansion.again` — what the hybrid of an expansion expands to: what was frozen is text now, and each deferred
  inclusion is as before. It emits the same text and stores the same artifacts;
* `Expands.again` — it is the expansion of the hybrid;
* `exists_precompile_of_meaning` — a precompilation succeeds where the render in plain mode does;
* `precompile_idempotent` — the second precompilation answers what the first one did.
-/

namespace HybridTemplate

open Registers (Handle)
open World

/-! ## The expansion of the hybrid -/

namespace Expansion

/-- One expansion after the other. -/
def append : Expansion → Expansion → Expansion
  | nil, f => f
  | text content rest, f => text content (rest.append f)
  | output v value rest, f => output v value (rest.append f)
  | inclusion tag deferred body rest, f => inclusion tag deferred body (rest.append f)

/-- What the hybrid of an expansion expands to. -/
def again : Expansion → Expansion
  | nil => nil
  | text content rest => text content rest.again
  | output _ value rest => text value rest.again
  | inclusion tag true body rest => inclusion tag true body rest.again
  | inclusion _ false body rest => body.again.append rest.again

theorem emitted_append (e f : Expansion) : (e.append f).emitted = e.emitted ++ f.emitted := by
  induction e with
  | nil => exact String.empty_append.symm
  | text content rest ih => rw [append, emitted, emitted, ih, String.append_assoc]
  | output v value rest ih => rw [append, emitted, emitted, ih, String.append_assoc]
  | inclusion tag deferred body rest ihb ih =>
    rw [append, emitted_inclusion, emitted_inclusion, ih, String.append_assoc]

theorem stored_append (src : String → String) (e f : Expansion) (a : Option Artifacts) :
    (e.append f).stored src a = f.stored src (e.stored src a) := by
  induction e generalizing a with
  | nil => rfl
  | text content rest ih => exact ih a
  | output v value rest ih => exact ih a
  | inclusion tag deferred body rest ihb ih =>
    cases deferred with
    | true => exact ih _
    | false => exact ih _

/-- The hybrid emits the same text once more. -/
theorem emitted_again (e : Expansion) : e.again.emitted = e.emitted := by
  induction e with
  | nil => rfl
  | text content rest ih => rw [again, emitted, emitted, ih]
  | output v value rest ih => rw [again, emitted, emitted, ih]
  | inclusion tag deferred body rest ihb ih =>
    cases deferred with
    | true => rw [again, emitted, emitted, ih]
    | false => rw [again, emitted_append, emitted, ihb, ih]

/-- The hybrid stores the same artifacts once more. -/
theorem stored_again (src : String → String) (e : Expansion) (a : Option Artifacts) :
    e.again.stored src a = e.stored src a := by
  induction e generalizing a with
  | nil => rfl
  | text content rest ih => exact ih a
  | output v value rest ih => exact ih a
  | inclusion tag deferred body rest ihb ih =>
    cases deferred with
    | true => exact ih _
    | false => rw [again, stored_append, ihb, ih, stored]

end Expansion

namespace Expands

variable {C : Catalog} {R : Variable → String → Bool → Prop} {π : TaintPolicy} {as bs nodes : List Node}
  {e f : Expansion} {m n : Bool}

theorem append (h : Expands C R π as e m) (h' : Expands C R π bs f n) :
    Expands C R π (as ++ bs) (e.append f) (m || n) := by
  induction h with
  | nil => exact h'
  | text _ ih => exact .text ih
  | output hv _ ih =>
    rw [Bool.or_assoc]
    exact .output hv ih
  | inclusion ht hb _ _ ih =>
    rw [Bool.or_assoc]
    exact .inclusion ht hb ih

/-- The hybrid of an expansion expands to what is to be expected. Outputs are gone from it, so that its mark may be
another one. -/
theorem again (h : Expands C R π nodes e m) : ∃ n, Expands C R π e.hybrid e.again n := by
  induction h with
  | nil => exact ⟨_, .nil⟩
  | text _ ih =>
    obtain ⟨n, ih⟩ := ih
    exact ⟨n, .text ih⟩
  | output _ _ ih =>
    obtain ⟨n, ih⟩ := ih
    exact ⟨n, .text ih⟩
  | @inclusion tag t d body nodes e m ht hb _ ihb ih =>
    obtain ⟨n, ih⟩ := ih
    cases d with
    | true => exact ⟨_, .inclusion ht hb ih⟩
    | false =>
      obtain ⟨n', ihb⟩ := ihb
      exact ⟨_, ihb.append ih⟩

end Expands

/-! ## The second precompilation -/

section

variable {ω σ : Type} [DataModel ω σ] {ctx : Context ω}

/-- In a pure context an output shows the same whatever the state of the objects is. -/
theorem Context.Pure.related_evaluate (hp : ctx.Pure) (v : Variable) :
    Run.Related (Shared.Objects fun _ _ => True) Eq (ctx.evaluate v) (ctx.evaluate v) := by
  obtain ⟨r, m, hs, -⟩ := hp.settles_decorated v
  exact fun w w' _ => ⟨.of_eq (fun _ => rfl) ((hs w).1.trans (hs w').1.symm), trivial⟩

namespace Environment

variable {C : Catalog} {shows : Variable → Rendered} {t : Template} {w : World σ}

/-- A precompilation succeeds where a render in plain mode does. -/
theorem exists_precompile_of_meaning (hp : ctx.Pure) (hmeans : ctx.Says shows) (hs : w.source.Serves C) {out : String}
    (hm : meaningWith shows (C.meaning shows (max ctx.includeLimit w.includeDepth)
      (ctx.includeLimit - w.includeDepth)) t.nodes = .ok out) :
    ∃ p, ((cached.precompile ctx t).run w).1 = .ok p := by
  have hover : ctx.Over C w.includeDepth (w.inMode ctx.registers false) :=
    ⟨hs, congrArg Registers.caching (Shared.get_modifyRegisters_self _ _ _), rfl⟩
  have hplain := render_eq_meaning hmeans hover t
  rw [hm, render_run] at hplain
  have hs' : (renderStart ctx (w.inMode ctx.registers false)).source.Serves C := hs
  have hdepth : (precompileStart ctx w).includeDepth =
      (renderStart ctx (w.inMode ctx.registers false)).includeDepth := rfl
  obtain ⟨halike, -⟩ := renderNodes_alike (q := fun _ _ => True) ⟨fun _ => trivial, id, fun _ => id⟩
    hp.related_evaluate (hp.confined bound_gathers) t trivial hdepth hs hs'
  rw [show _ = Except.ok out from hplain] at halike
  rcases hr : (cached.renderNodes ctx t).run (precompileStart ctx w) with ⟨r, w'⟩
  rw [hr] at halike
  cases halike with
  | ok _ =>
    obtain ⟨event, hrun⟩ := precompile_run_of_ok hr
    rw [hrun]
    exact ⟨_, rfl⟩

/-- Merged texts make no difference to a precompilation. -/
theorem precompile_merge (env : Environment) (ctx : Context ω) (nodes : List Node) :
    env.precompile (σ := σ) ctx ⟨Node.merge [] nodes⟩ = env.precompile ctx ⟨nodes⟩ := by
  simp only [precompile, renderNodes, renderWith_merge_nil]

/-- The hybrid of an expansion is precompiled to the source and the artifacts of the expansion. -/
theorem precompile_hybrid (hp : ctx.Pure) (hs : w.source.Serves C) {nodes : List Node} {e : Expansion} {m : Bool}
    (he : Expands C ctx.Settled (w.registers.get ctx.registers).policy nodes e m)
    (hh : e.height ≤ ctx.includeLimit - w.includeDepth) :
    ((cached.precompile ctx ⟨e.hybrid⟩).run w).1 =
      .ok { source := e.emitted, artifacts := (e.stored C.text none).getD {} } := by
  obtain ⟨shows, hmeans⟩ := hp.exists_says
  have hshows : ∀ v x b, ctx.Settled v x b → shows v = .ok x := by
    intro v x b hv
    obtain ⟨k, hk⟩ := hmeans v
    rw [← (hk w.toShared).1, hv.1]
  have hmeaning : meaningWith shows (C.meaning shows (max ctx.includeLimit w.includeDepth)
      (ctx.includeLimit - w.includeDepth)) e.hybrid = _ :=
    he.meaning_hybrid (fun v x b hv => hv.2) (fun v x hv => hshows v x false hv) hh fun v x b _ hv => hshows v x b hv
  rw [he.meaning_plain hshows hh] at hmeaning
  obtain ⟨p, hr⟩ := exists_precompile_of_meaning hp hmeans hs hmeaning
  obtain ⟨e', n', he', -, hsource, hartifacts⟩ := exists_expands_of_precompile hp.outcomes hs hr
  obtain ⟨n, hagain⟩ := he.again
  obtain ⟨rfl, -⟩ := he'.unique (fun v x y b c hx hy => hx.unique w.toShared hy) hagain
  rw [hr, ← e.emitted_again, ← e.stored_again, ← hsource, ← hartifacts]

/-- If no markup begins in its frozen texts, the source of a precompiled template parses, and it is precompiled to the
same template: in the state that the first precompilation left, and in any other one in which the source serves the same
catalog and the policy and the depth are the same. -/
theorem precompile_idempotent (hp : ctx.Pure) (hs : w.source.Serves C) {source : String}
    (ht : Template.parse source = .ok t) {p : Precompiled} (hr : ((cached.precompile ctx t).run w).1 = .ok p)
    (hclean : ∀ left, Hybrid C ctx.Shows (C.Tainted ctx.Touches (w.registers.get ctx.registers).policy) t.nodes left →
      Clean left) :
    ∃ t', p.parse = .ok t' ∧
      ((cached.precompile ctx t').run ((cached.precompile ctx t).run w).2).1 = .ok p ∧
      ∀ w' : World σ, w'.source.Serves C → w'.includeDepth = w.includeDepth →
        (w'.registers.get ctx.registers).policy = (w.registers.get ctx.registers).policy →
        ((cached.precompile ctx t').run w').1 = .ok p := by
  obtain ⟨e, m, he, hh, hsource, hartifacts⟩ := exists_expands_of_precompile hp.outcomes hs hr
  have hagain : ∀ w' : World σ, w'.source.Serves C → w'.includeDepth = w.includeDepth →
      (w'.registers.get ctx.registers).policy = (w.registers.get ctx.registers).policy →
      ((cached.precompile ctx ⟨Node.merge [] e.hybrid⟩).run w').1 = .ok p := by
    intro w' hs' hdepth hpolicy
    rw [precompile_merge, precompile_hybrid hp hs' (hpolicy ▸ he) (hdepth ▸ hh), ← hsource, ← hartifacts]
  refine ⟨_, he.parse_eq_ok ht (hclean _ he.hybrid_of_settled) hsource, ?_, hagain⟩
  obtain ⟨hanswer, hdepth, r, hmode, hregs⟩ :=
    outside_precompile (hp.confined Registers.bracketed_inMode.toBound) cached t w
  exact hagain _ (hs.congr hanswer) hdepth ((congrArg Registers.policy hregs).trans hmode.lowers.policy)

end Environment

end

namespace Sample

/-- The page is precompiled to the same once more. -/
theorem precompile_idempotent_page :
    ∃ t', (precompiled "Ann").parse = .ok t' ∧
      ((Environment.cached.precompile (context "Ann") t').run
        ((Environment.cached.precompile (context "Ann") page).run world).2).1 = .ok (precompiled "Ann") := by
  obtain ⟨t', hparse, hagain, -⟩ := Environment.precompile_idempotent (w := world) (pure_context "Ann").1 serves_world
    parse_page (precompile_page "Ann") fun left hleft => by
      rw [hybrid_page hleft]
      decide
  exact ⟨t', hparse, hagain⟩

end Sample

end HybridTemplate
