import HybridTemplate.Proofs.Access

/-!
# Objects that keep within bounds

What objects may do to the registers of a render can be said as a relation between the registers before and after an
access. If the relation allows to do nothing, to do two things in a row and to mark, then a whole path keeps within it.

* `Bound` — such a relation; `Registers.Marking` is the least of them;
* `Confined` — objects that keep within a relation, and answer only such objects;
* `Context.Confined.within` — then every output keeps within the relation;
* `Value.Meets`, `Context.Confined.marks` — and a path that leads through a layer which knows the registers marks on the
  way, whatever the objects around the layer are like.
-/

namespace HybridTemplate

open Registers (Handle)

/-! ## Bounds -/

/-- A relation between the registers before and after, which allows to do nothing, to do two things in a row and to
mark. -/
structure Bound (S : Registers → Registers → Prop) : Prop where
  refl : ∀ r, S r r
  trans : ∀ {r₁ r₂ r₃}, S r₁ r₂ → S r₂ r₃ → S r₁ r₃
  mark : ∀ r, S r r.markUncacheable

/-- The registers are as before or marked. -/
def Registers.Marking (r r' : Registers) : Prop :=
  ∃ m, r' = r.absorb m ∅

theorem bound_marking : Bound Registers.Marking where
  refl r := ⟨false, r.absorb_false_empty.symm⟩
  trans := by
    rintro r _ _ ⟨m, rfl⟩ ⟨n, rfl⟩
    exact ⟨m || n, by rw [Registers.absorb_absorb, NameSet.union_empty]⟩
  mark r := ⟨true, r.markUncacheable_eq_absorb⟩

namespace Run

variable {s ε α β : Type} {look : s → Registers} {S : Registers → Registers → Prop} {x : Run s ε α} {f : α → Run s ε β}

/-- However the run ends, the registers that `look` finds keep within `S`. -/
def Within (look : s → Registers) (S : Registers → Registers → Prop) (x : Run s ε α) : Prop :=
  ∀ w, S (look w) (look (x.run w).2)

/-- The run keeps within `S`, and it marks the registers at some point. -/
def MarksWithin (look : s → Registers) (S : Registers → Registers → Prop) (x : Run s ε α) (w : s) : Prop :=
  ∃ r, S (look w) r ∧ S r.markUncacheable (look (x.run w).2)

theorem within_pure (hS : Bound S) (a : α) : Within look S (pure a : Run s ε α) :=
  fun w => hS.refl (look w)

theorem within_fail (hS : Bound S) (e : Failure ε) : Within look S (fail e : Run s ε α) :=
  fun w => hS.refl (look w)

/-- A sequence keeps within `S` if what comes second does for all answers of the first. -/
theorem Within.bind (hS : Bound S) (hx : Within look S x)
    (hf : ∀ w a w', x.run w = (.ok a, w') → Within look S (f a)) : Within look S (x >>= f) :=
  Keeps.bind_of_run (P := fun w w' => S (look w) (look w')) (fun _ _ _ => hS.trans) hx hf

/-- A sequence marks if its first part does. -/
theorem MarksWithin.bind (hS : Bound S) {w : s} (hx : MarksWithin look S x w)
    (hf : ∀ w a w', x.run w = (.ok a, w') → Within look S (f a)) : MarksWithin look S (x >>= f) w := by
  obtain ⟨r, h₁, h₂⟩ := hx
  rcases hr : x.run w with ⟨e | a, w₁⟩
  · rw [hr] at h₂
    exact ⟨r, h₁, by rwa [bind_run_of_error hr]⟩
  · rw [hr] at h₂
    exact ⟨r, h₁, by rw [bind_run_of_ok hr]; exact hS.trans h₂ (hf w a w₁ hr w₁)⟩

/-- A sequence marks if its second part does. -/
theorem MarksWithin.bind_right (hS : Bound S) {w w₁ : s} {a : α} (hx : Within look S x) (hr : x.run w = (.ok a, w₁))
    (hf : MarksWithin look S (f a) w₁) : MarksWithin look S (x >>= f) w := by
  obtain ⟨r, h₁, h₂⟩ := hf
  have hw := hx w
  rw [hr] at hw
  exact ⟨r, hS.trans hw h₁, by rwa [bind_run_of_ok hr]⟩

end Run

/-- The registers of a handle in a state that is shared with objects. -/
def Shared.registersAt {σ : Type} (h : Handle) (w : Shared σ) : Registers :=
  w.registers.get h

/-! ## Layers -/

namespace DataObject

variable {ω σ α : Type} {h : Handle} {S : Registers → Registers → Prop} {act : ω → ObjectRun σ α}

theorem within_taint (hS : Bound S) (registers : Option Handle) (member : String) :
    Run.Within (Shared.registersAt h) S (taint (σ := σ) registers member) := by
  intro w
  obtain ⟨m, hm, -⟩ := settles_taint (σ := σ) (h := h) registers member
  rw [Shared.registersAt, Shared.registersAt, (hm w).2]
  cases m with
  | false => rw [Registers.absorb_false_empty]; exact hS.refl _
  | true => rw [← Registers.markUncacheable_eq_absorb]; exact hS.mark _

/-- An access through layers keeps within a bound if the one behind them does. -/
theorem within_access (hS : Bound S) (member : String) {o : DataObject ω}
    (ha : Run.Within (Shared.registersAt h) S (act o.core)) :
    Run.Within (Shared.registersAt h) S (o.access member act) := by
  induction o with
  | bare o => exact ha
  | uncacheable o registers ih => exact (within_taint hS registers member).bind hS fun _ _ _ _ => ih ha

/-- An access through a layer that knows the registers marks them. -/
theorem marksWithin_access (hS : Bound S) (member : String) {o : DataObject ω} (hk : o.Knows h)
    (ha : Run.Within (Shared.registersAt h) S (act o.core)) (w : Shared σ) :
    Run.MarksWithin (Shared.registersAt h) S (o.access member act) w := by
  induction o generalizing w with
  | bare o => exact hk.elim
  | uncacheable o registers ih =>
    obtain ⟨m, hm, hreg⟩ := settles_taint (σ := σ) (h := h) registers member
    have htaint : (taint (σ := σ) registers member).run w = (.ok (), _) := Prod.ext (hm w).1 rfl
    rcases hk with hk | hk
    · refine Run.MarksWithin.bind hS ⟨_, hS.refl _, ?_⟩ fun _ _ _ _ => within_access hS member ha
      rw [hreg.mpr hk] at hm
      rw [Shared.registersAt, Shared.registersAt, (hm w).2, Registers.markUncacheable_eq_absorb]
      exact hS.refl _
    · exact Run.MarksWithin.bind_right hS (within_taint hS registers member) htaint (ih hk ha _)

/-- The state in which an access comes to the object behind the layers: each of them has marked what it knows. -/
def inward (member : String) : DataObject ω → Shared σ → Shared σ
  | bare _, w => w
  | uncacheable o registers, w => o.inward member ((taint registers member : ObjectRun σ Unit).run w).2

theorem within_inward (hS : Bound S) (member : String) (o : DataObject ω) (w : Shared σ) :
    S (w.registersAt h) ((o.inward member w).registersAt h) := by
  induction o generalizing w with
  | bare o => exact hS.refl _
  | uncacheable o registers ih => exact hS.trans (within_taint hS registers member w) (ih _)

/-- An access is one to the object behind the layers, after these have marked. -/
theorem access_run (member : String) (act : ω → ObjectRun σ α) (o : DataObject ω) (w : Shared σ) :
    (o.access member act).run w = (act o.core).run (o.inward member w) := by
  induction o generalizing w with
  | bare o => rfl
  | uncacheable o registers ih =>
    obtain ⟨m, hm, -⟩ := settles_taint (σ := σ) (h := ⟨0⟩) registers member
    have htaint : (taint (σ := σ) registers member).run w = (.ok (), _) := Prod.ext (hm w).1 rfl
    rw [access, Run.bind_run_of_ok htaint]
    exact ih _

/-- What an access answers is what the object behind the layers answers in some state. -/
theorem exists_run_of_access (member : String) {o : DataObject ω} {w : Shared σ} {a : α}
    (hr : ((o.access member act).run w).1 = .ok a) : ∃ w', ((act o.core).run w').1 = .ok a :=
  ⟨o.inward member w, by rwa [← access_run]⟩

end DataObject

/-! ## Paths -/

/-- The objects in `held` keep within `S` on the registers of `h`, and the objects they answer are in `held` as well.
Nothing is said about what else they do and what they answer. -/
structure Confined {ω σ : Type} [DataModel ω σ] (S : Registers → Registers → Prop) (h : Handle) (held : ω → Prop) :
    Prop where
  invoke : ∀ o, held o → ∀ member, Run.Within (Shared.registersAt h) S (DataModel.invoke o member)
  toOutput : ∀ o, held o → Run.Within (Shared.registersAt h) S (DataModel.toOutput o)
  answer : ∀ o, held o → ∀ member w o', ((DataModel.invoke o member).run w).1 = .ok (.object o') → held o'.core

theorem PureObjects.confined {ω σ : Type} [DataModel ω σ] {held : ω → Prop} (hp : PureObjects held)
    {S : Registers → Registers → Prop} (hS : Bound S) (h : Handle) : Confined S h held where
  invoke o ho member w := by
    obtain ⟨r, hr, -⟩ := hp.invoke o ho member
    rw [Shared.registersAt, Shared.registersAt, (hr w).2]
    exact hS.refl _
  toOutput o ho w := by
    obtain ⟨r, hr⟩ := hp.toOutput o ho
    rw [Shared.registersAt, Shared.registersAt, (hr w).2]
    exact hS.refl _
  answer o ho member w o' ha := by
    obtain ⟨r, hr, hheld⟩ := hp.invoke o ho member
    exact hheld o' ((hr w).1.symm.trans ha)

namespace Value

variable {ω σ : Type} [DataModel ω σ] {S : Registers → Registers → Prop} {h : Handle} {held : ω → Prop} {v : Value ω}
  {p : Value ω → Prop} {keys : List String} {w : Shared σ}

/-- From this state the path leads through a value in `p`: a member of the value is read, or it is the value that goes
into the output. -/
inductive Meets (p : Value ω → Prop) : List String → Value ω → Shared σ → Prop
  | here {keys : List String} {v : Value ω} {w : Shared σ} (hv : p v) : Meets p keys v w
  | next {key : String} {keys : List String} {v v' : Value ω} {w w' : Shared σ} (hr : (v.get key).run w = (.ok v', w'))
      (h : Meets p keys v' w') : Meets p (key :: keys) v w

theorem within_get (hS : Bound S) (hc : Confined S h held) (hv : v.In held) (key : String) :
    Run.Within (Shared.registersAt h) S (v.get key) := by
  cases v with
  | json j => exact Run.within_pure hS _
  | object o => exact DataObject.within_access hS key (hc.invoke o.core (hv o rfl) key)

theorem in_get (hc : Confined S h held) (hv : v.In held) {key : String} {v' : Value ω} {w w' : Shared σ}
    (hr : (v.get key).run w = (.ok v', w')) : v'.In held := by
  cases v with
  | json j =>
    obtain ⟨rfl, -⟩ := Run.pure_eq_ok hr
    rintro o ⟨⟩
  | object o =>
    rintro o' rfl
    obtain ⟨w₁, h₁⟩ := DataObject.exists_run_of_access key (congrArg Prod.fst hr)
    exact hc.answer o.core (hv o rfl) key w₁ o' h₁

theorem within_render (hS : Bound S) (hc : Confined S h held) (hv : v.In held) :
    Run.Within (Shared.registersAt h) S v.render := by
  cases v with
  | json j => exact Run.within_pure hS _
  | object o => exact DataObject.within_access hS "to_output" (hc.toOutput o.core (hv o rfl))

theorem path_cons (key : String) (keys : List String) (v : Value ω) :
    (do (← v.getAll (key :: keys)).render : ObjectRun σ String) =
      v.get key >>= fun v' => (do (← v'.getAll keys).render) := by
  simp only [getAll, bind_assoc]

/-- A path keeps within the bound. -/
theorem within_path (hS : Bound S) (hc : Confined S h held) (keys : List String) (hv : v.In held) :
    Run.Within (Shared.registersAt h) S (do (← v.getAll keys).render) := by
  induction keys generalizing v with
  | nil => exact within_render hS hc hv
  | cons key keys ih =>
    rw [path_cons]
    exact (within_get hS hc hv key).bind hS fun w v' w' hr => ih (in_get hc hv hr)

theorem marksWithin_here (hS : Bound S) (hc : Confined S h held) (keys : List String) (hv : v.In held)
    (hk : v.Knows h) (w : Shared σ) : Run.MarksWithin (Shared.registersAt h) S (do (← v.getAll keys).render) w := by
  obtain ⟨o, rfl, ho⟩ := hk
  cases keys with
  | nil => exact DataObject.marksWithin_access hS "to_output" ho (hc.toOutput o.core (hv o rfl)) w
  | cons key keys =>
    rw [path_cons]
    exact (DataObject.marksWithin_access hS key ho (hc.invoke o.core (hv o rfl) key) w).bind hS
      fun w v' w' hr => within_path hS hc keys (in_get hc hv hr)

/-- A path that leads through a layer which knows the registers marks them. -/
theorem Meets.marksWithin (hS : Bound S) (hc : Confined S h held) (hm : v.Meets (Knows h) keys w) (hv : v.In held) :
    Run.MarksWithin (Shared.registersAt h) S (do (← v.getAll keys).render) w := by
  induction hm with
  | here hk => exact marksWithin_here hS hc _ hv hk _
  | next hr _ ih =>
    rw [path_cons]
    refine Run.MarksWithin.bind_right hS (within_get hS hc hv _) hr ?_
    exact ih (in_get hc hv hr)

end Value

/-! ## Contexts -/

namespace Context

variable {ω σ : Type} [DataModel ω σ] {S : Registers → Registers → Prop} {ctx : Context ω}

/-- All objects within reach of the variables keep within `S` on the registers of the render. -/
def Confined (S : Registers → Registers → Prop) (ctx : Context ω) : Prop :=
  ∃ held : ω → Prop, HybridTemplate.Confined S ctx.registers held ∧ ∀ name, (ctx.lookup name).In held

/-- From this state an output leads through a layer that knows the registers of the render. -/
def Meets (ctx : Context ω) (v : Variable) (w : Shared σ) : Prop :=
  (ctx.lookup v.name).Meets (Value.Knows ctx.registers) v.members w

theorem Confined.mono {S' : Registers → Registers → Prop} (hc : ctx.Confined S) (h : ∀ {r r'}, S r r' → S' r r') :
    ctx.Confined S' := by
  obtain ⟨held, ⟨hinvoke, htoOutput, hanswer⟩, hin⟩ := hc
  exact ⟨held, ⟨fun o ho member w => h (hinvoke o ho member w), fun o ho w => h (htoOutput o ho w), hanswer⟩, hin⟩

theorem Pure.confined (hp : ctx.Pure) (hS : Bound S) : ctx.Confined S := by
  obtain ⟨held, hheld, hin⟩ := hp
  exact ⟨held, hheld.confined hS ctx.registers, hin⟩

theorem Confined.within (hc : ctx.Confined S) (hS : Bound S) (v : Variable) :
    Run.Within (Shared.registersAt ctx.registers) S (ctx.evaluate v) := by
  obtain ⟨held, hheld, hin⟩ := hc
  exact Value.within_path hS hheld v.members (hin v.name)

theorem Confined.marks (hc : ctx.Confined S) (hS : Bound S) {v : Variable} {w : Shared σ} (hm : ctx.Meets v w) :
    Run.MarksWithin (Shared.registersAt ctx.registers) S (ctx.evaluate v) w := by
  obtain ⟨held, hheld, hin⟩ := hc
  exact Value.Meets.marksWithin hS hheld hm (hin v.name)

theorem Decorated.meets {v : Variable} (hd : ctx.Decorated v.name) (w : Shared σ) : ctx.Meets v w :=
  .here hd

end Context

end HybridTemplate
