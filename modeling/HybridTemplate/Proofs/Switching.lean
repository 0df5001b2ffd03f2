import HybridTemplate.Proofs.Acts

/-!
# Objects that mark and switch the mode

Objects that do no more to the registers of a render than mark the inclusions in progress and switch caching mode can be
told from their effects: if an output has marked, then a layer that knows the registers was on its path, or an object
that marks on its own account.

* `Registers.Switching` — the bound;
* `Value.Marks` — a value whose accesses may mark;
* `Context.Confined.stack_evaluate` — an output marks only if its path leads through such a value.
-/

namespace HybridTemplate

open Registers (Handle)

/-! ## Bounds -/

namespace Registers

/-- The mode may be another one, and nothing else. -/
def Switched (r r' : Registers) : Prop :=
  ∃ caching, r' = r.setCaching caching

/-- The inclusions in progress may be marked and the mode may be another one, and nothing else. -/
def Switching (r r' : Registers) : Prop :=
  ∃ m caching, r' = (r.absorb m ∅).setCaching caching

theorem setCaching_absorb (r : Registers) (m : Bool) (a : NameSet) (caching : Bool) :
    (r.setCaching caching).absorb m a = (r.absorb m a).setCaching caching := rfl

theorem setCaching_setCaching (r : Registers) (caching caching' : Bool) :
    (r.setCaching caching).setCaching caching' = r.setCaching caching' := rfl

theorem Switched.refl (r : Registers) : r.Switched r :=
  ⟨r.caching, rfl⟩

theorem Switched.trans {r₁ r₂ r₃ : Registers} (h₁ : r₁.Switched r₂) (h₂ : r₂.Switched r₃) : r₁.Switched r₃ := by
  obtain ⟨c, rfl⟩ := h₁
  obtain ⟨d, rfl⟩ := h₂
  exact ⟨d, r₁.setCaching_setCaching c d⟩

theorem bound_switching : Bound Switching where
  refl r := ⟨false, r.caching, by rw [absorb_false_empty]; rfl⟩
  trans := by
    rintro r _ _ ⟨m, c, rfl⟩ ⟨n, d, rfl⟩
    refine ⟨m || n, d, ?_⟩
    rw [setCaching_absorb, setCaching_setCaching, absorb_absorb, NameSet.union_empty]
  mark r := ⟨true, r.caching, by rw [markUncacheable_eq_absorb]; rfl⟩

theorem Switching.store {r r' : Registers} (h : r.Switching r') : r'.store = r.store := by
  obtain ⟨m, c, rfl⟩ := h
  rfl

end Registers

/-! ## What marks -/

section

variable {ω σ : Type} [DataModel ω σ] {h : Handle}

/-- Some access to the object does more to the registers than to switch the mode. -/
def MarksItself (h : Handle) (o : ω) : Prop :=
  ¬((∀ member, Run.Within (Shared.registersAt h) Registers.Switched (DataModel.invoke o member)) ∧
    Run.Within (Shared.registersAt h) Registers.Switched (DataModel.toOutput o))

/-- The value is an object in a layer that knows the registers, or one that marks on its own account. -/
def Value.Marks (h : Handle) (v : Value ω) : Prop :=
  ∃ o, v = .object o ∧ (o.Knows h ∨ MarksItself h o.core)

omit [DataModel ω σ] in
/-- Layers that do not know the registers leave them alone. -/
theorem DataObject.switched_access {α : Type} (member : String) {act : ω → ObjectRun σ α} {o : DataObject ω}
    (hk : ¬o.Knows h) (ha : Run.Within (Shared.registersAt h) Registers.Switched (act o.core)) :
    Run.Within (Shared.registersAt h) Registers.Switched (o.access member act) := by
  induction o with
  | bare o => exact ha
  | uncacheable o registers ih =>
    obtain ⟨m, hm, hreg⟩ := settles_taint (σ := σ) (h := h) registers member
    obtain rfl : m = false := Bool.eq_false_iff.mpr fun ht => hk (.inl (hreg.mp ht))
    have htaint : Run.Within (Shared.registersAt h) Registers.Switched (taint (σ := σ) registers member) := by
      intro w
      rw [Shared.registersAt, Shared.registersAt, (hm w).2, Registers.absorb_false_empty]
      exact .refl _
    have hrest := ih (fun hko => hk (.inr hko)) ha
    exact Run.Keeps.bind (P := fun w w' => (Shared.registersAt h w).Switched (Shared.registersAt h w'))
      (fun _ _ _ => Registers.Switched.trans) htaint fun _ => hrest

namespace Value

variable {v : Value ω}

theorem switched_get (hv : ¬v.Marks h) (key : String) :
    Run.Within (Shared.registersAt h) Registers.Switched (v.get key) := by
  cases v with
  | json j => exact fun w => .refl _
  | object o =>
    obtain ⟨hk, hself⟩ := not_or.mp fun ho => hv ⟨o, rfl, ho⟩
    exact DataObject.switched_access key hk ((Classical.not_not.mp hself).1 key)

theorem switched_render (hv : ¬v.Marks h) : Run.Within (Shared.registersAt h) Registers.Switched v.render := by
  cases v with
  | json j => exact fun w => .refl _
  | object o =>
    obtain ⟨hk, hself⟩ := not_or.mp fun ho => hv ⟨o, rfl, ho⟩
    exact DataObject.switched_access "to_output" hk (Classical.not_not.mp hself).2

/-- A path that marks has led through a value that may. -/
theorem meets_of_absorb {held : ω → Prop} (hc : Confined Registers.Switching h held) (keys : List String)
    (hv : v.In held) (w : Shared σ) : ∃ m caching,
      Shared.registersAt h ((do (← v.getAll keys).render : ObjectRun σ String).run w).2 =
        ((Shared.registersAt h w).absorb m ∅).setCaching caching ∧ (m = true → v.Meets (Marks h) keys w) := by
  induction keys generalizing v w with
  | nil =>
    by_cases hm : v.Marks h
    · obtain ⟨m, caching, hregs⟩ := within_render Registers.bound_switching hc hv w
      exact ⟨m, caching, hregs, fun _ => .here hm⟩
    · obtain ⟨caching, hregs⟩ := switched_render hm w
      refine ⟨false, caching, ?_, fun h => nomatch h⟩
      rw [Registers.absorb_false_empty]
      exact hregs
  | cons key keys ih =>
    by_cases hm : v.Marks h
    · obtain ⟨m, caching, hregs⟩ := within_path Registers.bound_switching hc (key :: keys) hv w
      exact ⟨m, caching, hregs, fun _ => .here hm⟩
    · obtain ⟨caching, hregs⟩ := switched_get hm key w
      rw [path_cons]
      rcases hr : (v.get key).run w with ⟨f | v', w₁⟩
      · rw [hr] at hregs
        rw [Run.bind_run_of_error hr]
        refine ⟨false, caching, ?_, fun h => nomatch h⟩
        rw [Registers.absorb_false_empty]
        exact hregs
      · rw [hr] at hregs
        rw [Run.bind_run_of_ok hr]
        obtain ⟨m, caching', hrest, hmeets⟩ := ih (in_get hc hv hr) w₁
        have hregs : Shared.registersAt h w₁ = (Shared.registersAt h w).setCaching caching := hregs
        refine ⟨m, caching', ?_, fun ht => .next hr (hmeets ht)⟩
        rw [hrest, hregs, Registers.setCaching_absorb, Registers.setCaching_setCaching]

end Value

/-- From this state the path of an output leads through a value that may mark. -/
def Context.MayMark (ctx : Context ω) (v : Variable) (w : Shared σ) : Prop :=
  (ctx.lookup v.name).Meets (Value.Marks ctx.registers) v.members w

/-- An output marks only if its path leads through a value that may. -/
theorem Context.Confined.stack_evaluate {ctx : Context ω} (hc : ctx.Confined Registers.Switching) (v : Variable)
    (w : Shared σ) : ∃ m, (Shared.registersAt ctx.registers ((ctx.evaluate v).run w).2).stack =
      (Shared.registersAt ctx.registers w).stack.absorb m ∅ ∧ (m = true → ctx.MayMark v w) := by
  obtain ⟨held, hheld, hin⟩ := hc
  obtain ⟨m, caching, hregs, hmeets⟩ := Value.meets_of_absorb hheld v.members (hin v.name) w
  exact ⟨m, congrArg Registers.stack hregs, hmeets⟩

end

end HybridTemplate
