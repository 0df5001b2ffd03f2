import HybridTemplate.Proofs.Related

/-!
# One render over two sources

Two states are twins if they differ in the source only, and the sources answer alike on a set of names beyond which the
render never looks. Objects cannot see the source, so a render goes on alike from twins, whatever the objects do; the
one thing that they must not do is to put names of their own on the stack, for the cache-aware layer reads the sources
of the names that it finds there.

* `Context.AddsNoNames` — objects that put no names on the stack;
* `coupled_twins` — a render cannot tell twins apart, as long as the names that it reads are in a set on which the
  sources answer alike and which is closed under what the templates include;
* `render_alike` — a render over twins.
-/

namespace HybridTemplate

open Registers (Handle)
open World

variable {ω σ : Type}

/-! ## Objects that add no names -/

theorem FrameStack.mentions_absorb_empty {s : FrameStack} {n : String} {m : Bool} (h : (s.absorb m ∅).Mentions n) :
    s.Mentions n := by
  obtain ⟨π, _ | ⟨g, fs⟩⟩ := s
  · exact h
  · obtain ⟨f', hf', hn⟩ := h
    rcases List.mem_cons.mp hf' with rfl | hf'
    · rw [NameSet.union_empty] at hn
      exact ⟨g, List.mem_cons_self, hn⟩
    · split at hf'
      · obtain ⟨f, hf, rfl⟩ := List.mem_map.mp hf'
        exact ⟨f, List.mem_cons_of_mem _ hf, hn⟩
      · exact ⟨f', List.mem_cons_of_mem _ hf', hn⟩

/-- The objects of the context put no names on the stack that were not there. -/
def Context.AddsNoNames [DataModel ω σ] (ctx : Context ω) : Prop :=
  ∀ v (w : Shared σ) n, (((ctx.evaluate v).run w).2.registers.get ctx.registers).stack.Mentions n →
    (w.registers.get ctx.registers).stack.Mentions n

/-- Objects that do nothing but mark add no names. -/
theorem Context.OnlyMarks.addsNoNames [DataModel ω σ] {ctx : Context ω} (h : ctx.OnlyMarks) : ctx.AddsNoNames := by
  intro v w n hn
  obtain ⟨m, hm⟩ := h v w
  rw [hm] at hn
  exact FrameStack.mentions_absorb_empty hn

/-! ## Twins -/

/-- Two states that differ in their sources only, which serve two catalogs; the stack mentions only names in `K`. -/
structure Twins (h : Handle) (K : String → Prop) (C₁ C₂ : Catalog) (w₁ w₂ : World σ) : Prop where
  shared : w₁.toShared = w₂.toShared
  depth : w₁.includeDepth = w₂.includeDepth
  serves₁ : w₁.source.Serves C₁
  serves₂ : w₂.source.Serves C₂
  mentions : ∀ n, (w₁.registers.get h).stack.Mentions n → K n

section

variable {h : Handle} {K : String → Prop} {C₁ C₂ : Catalog} {w₁ w₂ : World σ}

/-- Twins stay twins if their shared states change in the same way. -/
theorem Twins.mapShared (hw : Twins h K C₁ C₂ w₁ w₂) (g : Shared σ → Shared σ)
    (hg : ∀ n, ((g w₁.toShared).registers.get h).stack.Mentions n → K n) :
    Twins h K C₁ C₂ { w₁ with toShared := g w₁.toShared } { w₂ with toShared := g w₂.toShared } where
  shared := congrArg g hw.shared
  depth := hw.depth
  serves₁ := hw.serves₁
  serves₂ := hw.serves₂
  mentions := hg

/-- What a render does is the same in twins, if `K` is closed under what its templates include. -/
theorem coupled_twins (hK : ∀ n, K n → C₁ n = C₂ n) (hclosed : ∀ n k, K n → C₂.Includes n k → K k) :
    Coupled h h K (Twins (σ := σ) h K C₁ C₂) where
  depth hw := hw.depth
  atDepth d hw := ⟨hw.shared, rfl, hw.serves₁, hw.serves₂, hw.mentions⟩
  read := by
    intro w w' name hname hw
    refine ⟨?_, hw.shared, hw.depth, hw.serves₁, hw.serves₂, hw.mentions⟩
    rw [Source.read, Source.read, hw.serves₁, hw.serves₂, hK name hname]
  includes := by
    intro w w' name hname hw text htext t ht tag hm
    have hsource : C₂ name = .ok text := by
      rw [← hK name hname, ← htext]
      exact (hw.serves₁ _ _).symm
    exact hclosed name tag.key hname ⟨t, ⟨text, hsource, ht⟩, tag, hm, rfl⟩
  report e hw := hw.mapShared (·.report e) hw.mentions
  registers hw := by rw [hw.shared]
  mentions hw := hw.mentions
  modify := by
    intro w w' g hg hw
    refine hw.mapShared (·.modifyRegisters h g) fun n hn => ?_
    rw [Shared.get_modifyRegisters_self] at hn
    exact (hg _ n hn).elim id (hw.mentions n)

end

namespace Environment

variable [DataModel ω σ] {ctx : Context ω} {K : String → Prop} {C₁ C₂ : Catalog}

/-- Objects cannot tell twins apart. -/
theorem twins_evaluate (hctx : ctx.AddsNoNames) (v : Variable) :
    Run.Related (Twins (σ := σ) ctx.registers K C₁ C₂) Eq (lift (ctx.evaluate v)) (lift (ctx.evaluate v)) := by
  intro w₁ w₂ hw
  have hend := hw.mapShared (fun w => ((ctx.evaluate v).run w).2) fun n hn =>
    hw.mentions n (hctx v w₁.toShared n hn)
  have hanswer : ((ctx.evaluate v).run w₁.toShared).1 = ((ctx.evaluate v).run w₂.toShared).1 := by rw [hw.shared]
  exact ⟨.of_eq (fun _ => rfl) hanswer, hend⟩

/-- A render over twins gives the same result and ends in twins. -/
theorem render_alike (hctx : ctx.AddsNoNames) (hK : ∀ n, K n → C₁ n = C₂ n)
    (hclosed : ∀ n k, K n → C₂.Includes n k → K k) {nodes : List Node} (hn : ∀ tag, .inclusion tag ∈ nodes → K tag.key)
    {w₁ w₂ : World σ} (hs₁ : w₁.source.Serves C₁) (hs₂ : w₂.source.Serves C₂) (hshared : w₁.toShared = w₂.toShared)
    (hdepth : w₁.includeDepth = w₂.includeDepth) :
    ((cached.render ctx ⟨nodes⟩).run w₁).1 = ((cached.render ctx ⟨nodes⟩).run w₂).1 ∧
      ((cached.render ctx ⟨nodes⟩).run w₁).2.toShared = ((cached.render ctx ⟨nodes⟩).run w₂).2.toShared := by
  have hR : Coupled ctx.registers ctx.registers K (Twins (σ := σ) ctx.registers K C₁ C₂) := coupled_twins hK hclosed
  have hstart : Twins ctx.registers K C₁ C₂ (renderStart ctx w₁) (renderStart ctx w₂) := by
    refine ⟨?_, hdepth, hs₁, hs₂, ?_⟩
    · simp only [renderStart, hshared]
    · rintro n ⟨f, hf, -⟩
      rw [get_renderStart] at hf
      cases hf
  obtain ⟨hans, hend⟩ := related_render hR.toCongruent
    (related_renderNodes hR rfl (twins_evaluate hctx) cached (t := ⟨nodes⟩) hn) hstart
  exact ⟨hans.eq, hend.shared⟩

end Environment

end HybridTemplate
