import HybridTemplate.Proofs.Meaning

/-!
# The round trip of a precompilation

A page is precompiled for one request and rendered for another. If the two contexts agree on all that is not decorated,
the request cannot tell the hybrid from the page: `render_parse_precompile`.

What carries the proof is `Expands.meaning_hybrid`: whatever was frozen shows the same in both contexts, and what was
deferred means what its tag means. Frozen inclusions move tags to a lower depth, which makes no difference because the
precompilation has met all inclusions within the limit (`Expands.meaning_levels`).
-/

namespace HybridTemplate

variable {ω₁ σ₁ ω₂ σ₂ : Type} [DataModel ω₁ σ₁] [DataModel ω₂ σ₂] {ctx₁ : Context ω₁} {ctx₂ : Context ω₂}

/-- The output shows the same in both contexts, in every state. -/
def Context.Agree (ctx₁ : Context ω₁) (ctx₂ : Context ω₂) (v : Variable) : Prop :=
  ∀ w₁ w₂, ((ctx₁.evaluate v).run w₁).1 = ((ctx₂.evaluate v).run w₂).1

theorem Value.getAll_json {ω σ : Type} [DataModel ω σ] (keys : List String) (j : Json) (w : Shared σ) :
    ((Value.json j : Value ω).getAll keys).run w = (.ok (.json (keys.foldl (fun j key => j.member key) j)), w) := by
  induction keys generalizing j with
  | nil => rfl
  | cons key keys ih => exact ih (j.member key)

/-- Contexts agree on what is the same plain data in both. -/
theorem Context.agree_of_json {v : Variable} {j : Json} (h₁ : ctx₁.lookup v.name = .json j)
    (h₂ : ctx₂.lookup v.name = .json j) : ctx₁.Agree ctx₂ v := by
  intro w₁ w₂
  rw [evaluate, evaluate, h₁, h₂, Run.bind_run_of_ok (Value.getAll_json _ _ _),
    Run.bind_run_of_ok (Value.getAll_json _ _ _)]
  rfl

namespace Environment

variable {C : Catalog} {depth : Nat} {w₁ : World σ₁} {w₂ w₂' : World σ₂} {source : String} {t : Template}
  {p : Precompiled}

/-- The hybrid source of a page parses, and in another context it renders to what the page itself renders to, text or
error. -/
theorem render_parse_precompile (hp₁ : ctx₁.Pure) (hp₂ : ctx₂.Pure) (h₁ : ctx₁.Over C depth w₁)
    (h₂ : ctx₂.Over C depth w₂) (h₂' : ctx₂.Over C depth w₂') (hlimit : ctx₂.includeLimit = ctx₁.includeLimit)
    (hagree : ∀ v, ctx₁.Decorated v.name ∨ ctx₁.Agree ctx₂ v) (ht : Template.parse source = .ok t)
    (hown : ∀ v, .output v ∈ t.nodes → ¬ctx₁.Decorated v.name)
    (hr : ((cached.precompile ctx₁ t).run w₁).1 = .ok p)
    (hclean : ∀ left,
      Hybrid C ctx₁.Shows (C.Tainted ctx₁.Touches (w₁.registers.get ctx₁.registers).policy) t.nodes left → Clean left) :
    ∃ t', p.parse = .ok t' ∧ ((cached.render ctx₂ t').run w₂).1 = ((cached.render ctx₂ t).run w₂').1 := by
  obtain ⟨shows, hmeans⟩ := hp₂.exists_says
  obtain ⟨e, m, he, hh, hsource, -⟩ := exists_expands_of_precompile hp₁.outcomes h₁.serves hr
  have hdynamic : ∀ v x b, ctx₁.Settled v x b → (b = true ↔ ctx₁.Touches v) := fun v x b hv => hv.2
  have hparse := he.parse_eq_ok ht (hclean _ he.hybrid_of_settled) hsource
  -- what is not decorated shows in the second context what it showed in the first
  have hshows : ∀ v x b, ctx₁.Settled v x b → ¬ctx₁.Decorated v.name → shows v = .ok x := by
    intro v x b hv hd
    obtain ⟨k, hk⟩ := hmeans v
    rw [← (hk w₂.toShared).1, ← (hagree v).resolve_left hd w₁.toShared w₂.toShared, hv.1]
  have hstatic : ∀ v x, ctx₁.Settled v x false → shows v = .ok x := fun v x hv =>
    hshows v x false hv fun hd => Bool.false_ne_true (hv.2.mpr (hd.touches hp₁ w₁.toShared))
  refine ⟨_, hparse, ?_⟩
  rw [render_merge, render_eq_meaning hmeans h₂, render_eq_meaning hmeans h₂']
  refine he.meaning_hybrid hdynamic hstatic ?_ fun v x b hv hx => hshows v x b hx (hown v hv)
  rw [hlimit, ← h₁.depth]
  exact hh

end Environment

namespace Sample

theorem over_world (name : String) : (context name).Over catalog 0 world :=
  ⟨serves_world, rfl, rfl⟩

theorem agree_context (name name' : String) (v : Variable) :
    (context name).Decorated v.name ∨ (context name).Agree (context name') v := by
  by_cases hv : v.name = "user"
  · exact Or.inl (hv ▸ decorated_user name)
  · right
    by_cases ht : v.name = "title"
    · exact Context.agree_of_json (j := .string "Home") (by simp [lookup_context, ht]) (by simp [lookup_context, ht])
    · exact Context.agree_of_json (j := .null) (by simp [lookup_context, hv, ht, Value.null])
        (by simp [lookup_context, hv, ht, Value.null])

/-- The page of the sample site, precompiled for one user and rendered for another. -/
theorem render_parse_precompile_page :
    ∃ t', (precompiled "Ann").parse = .ok t' ∧
      ((Environment.cached.render (context "Bob") t').run world).1 =
        ((Environment.cached.render (context "Bob") page).run world).1 := by
  refine Environment.render_parse_precompile (pure_context "Ann").1 (pure_context "Bob").1 (over_world "Ann")
    (over_world "Bob") (over_world "Bob") rfl (agree_context "Ann" "Bob") parse_page ?_ (precompile_page "Ann") ?_
  · intro v hv
    obtain rfl : v = ⟨"title", []⟩ := by simpa [page] using hv
    rintro ⟨o, ho, -⟩
    cases (lookup_context "Ann" "title").symm.trans ho
  · intro left hleft
    rw [hybrid_page hleft]
    decide

end Sample

end HybridTemplate
