import HybridTemplate.Proofs.Confined
import HybridTemplate.Proofs.RawStore

/-!
# What a precompilation tells about dynamic data

A page is precompiled in two contexts that differ in their decorated objects only. Nothing of what these objects answer
gets into the hybrid source, the sources that are kept, or the names of the texts that are kept.

* `Counterparts` — two such contexts; the decorated objects may answer differently each time, as long as they do nothing
  to the registers but mark;
* `Counterparts.Outcome` — what can be said about an output in both contexts at once: that of a decorated variable
  marks, and any other shows the same;
* `Expands.shape_eq`, `Expands.emitted_eq` — so the two expansions have one shape, and frozen texts are the same;
* `precompile_noninterference` — the two precompilations.
-/

namespace HybridTemplate

open Registers (Handle)

/-! ## The shape of an expansion -/

namespace Expansion

/-- The expansion without the values of its outputs. -/
def shape : Expansion → Expansion
  | nil => nil
  | text content rest => text content rest.shape
  | output v _ rest => output v "" rest.shape
  | inclusion tag d body rest => inclusion tag d body.shape rest.shape

theorem names_shape (e : Expansion) : e.shape.names = e.names := by
  induction e with
  | nil => rfl
  | text content rest ih => exact ih
  | output v value rest ih => exact ih
  | inclusion tag d body rest ihb ih => rw [shape, names, names, ihb, ih]

theorem kept_shape (e : Expansion) : e.shape.kept = e.kept := by
  induction e with
  | nil => rfl
  | text content rest ih => exact ih
  | output v value rest ih => exact ih
  | inclusion tag d body rest ihb ih =>
    cases d with
    | true => rw [shape, kept, kept, names_shape, ih]
    | false => rw [shape, kept, kept, ihb, ih]

/-- Which names have a text is a matter of shape, and so is not the text. -/
theorem isSome_memo_shape (e : Expansion) (n : String) : (e.shape.memo n).isSome = (e.memo n).isSome := by
  induction e with
  | nil => rfl
  | text content rest ih => exact ih
  | output v value rest ih => exact ih
  | inclusion tag d body rest ihb ih =>
    cases d with
    | true =>
      simp only [shape, memo, Option.isSome_or, ih]
      split
      · rfl
      · rw [ihb]
    | false => simp only [shape, memo, Option.isSome_or, ihb, ih]

end Expansion

namespace Expands

variable {C : Catalog} {R : Variable → String → Bool → Prop} {π : TaintPolicy} {nodes : List Node} {e e' : Expansion}
  {m m' : Bool}

/-- If marks are the same for all outcomes of an output, expansions of the same nodes have one shape. -/
theorem shape_eq (hmarks : ∀ v x y b c, R v x b → R v y c → b = c) (h : Expands C R π nodes e m)
    (h' : Expands C R π nodes e' m') : e.shape = e'.shape ∧ m = m' := by
  induction h generalizing e' m' with
  | nil => cases h'; exact ⟨rfl, rfl⟩
  | text _ ih =>
    cases h' with
    | text h' =>
      obtain ⟨he, rfl⟩ := ih h'
      exact ⟨by rw [Expansion.shape, Expansion.shape, he], rfl⟩
  | output hv _ ih =>
    cases h' with
    | output hv' h' =>
      obtain ⟨he, rfl⟩ := ih h'
      obtain rfl := hmarks _ _ _ _ _ hv hv'
      exact ⟨by rw [Expansion.shape, Expansion.shape, he], rfl⟩
  | inclusion ht _ _ ihb ih =>
    cases h' with
    | inclusion ht' hb' h' =>
      obtain rfl := ht.unique ht'
      obtain ⟨hb, rfl⟩ := ihb hb'
      obtain ⟨he, rfl⟩ := ih h'
      exact ⟨by rw [Expansion.shape, Expansion.shape, hb, he], rfl⟩

/-- What a render emits is the same for all outcomes, if those that do not mark show one text and the outputs of the
nodes themselves do as well. Of the latter nothing has to be said if the nodes mark nothing. -/
theorem emitted_eq (hmarks : ∀ v x y b c, R v x b → R v y c → b = c)
    (hstatic : ∀ v x y, R v x false → R v y false → x = y) (h : Expands C R π nodes e m)
    (h' : Expands C R π nodes e' m')
    (hown : m = false ∨ ∀ v, .output v ∈ nodes → ∀ x y b c, R v x b → R v y c → x = y) : e.emitted = e'.emitted := by
  induction h generalizing e' m' with
  | nil => cases h'; rfl
  | text _ ih =>
    cases h' with
    | text h' =>
      have hrest := ih h' (hown.imp_right fun hown v hv => hown v (List.mem_cons_of_mem _ hv))
      rw [Expansion.emitted, Expansion.emitted, hrest]
  | @output v value b nodes e m hv _ ih =>
    cases h' with
    | @output _ value' _ _ e' _ hv' h' =>
      obtain rfl := hmarks _ _ _ _ _ hv hv'
      have hrest := ih h' (hown.imp (fun hm => (Bool.or_eq_false_iff.mp hm).2)
        fun hown v hv => hown v (List.mem_cons_of_mem _ hv))
      have hvalue : value = value' := by
        rcases hown with hm | hown
        · obtain rfl := (Bool.or_eq_false_iff.mp hm).1
          exact hstatic _ _ _ hv hv'
        · exact hown v List.mem_cons_self _ _ _ _ hv hv'
      rw [Expansion.emitted, Expansion.emitted, hrest, hvalue]
  | @inclusion tag t d body nodes e m ht hb _ ihb ih =>
    cases h' with
    | inclusion ht' hb' h' =>
      obtain rfl := ht.unique ht'
      obtain ⟨-, rfl⟩ := shape_eq hmarks hb hb'
      have hrest := ih h' (hown.imp (fun hm => (Bool.or_eq_false_iff.mp hm).2)
        fun hown v hv => hown v (List.mem_cons_of_mem _ hv))
      cases d with
      | true => rw [Expansion.emitted, Expansion.emitted, hrest]
      | false =>
        -- a frozen body has marked nothing
        rw [Expansion.emitted, Expansion.emitted, hrest, ihb hb' (Or.inl rfl)]

end Expands

/-! ## Contexts that differ in decorated objects -/

/-- A run settles in one way only: a mark can be told by a frame. -/
theorem Run.Settles.unique {σ ε α : Type} {h : Handle} {x : Run (Shared σ) ε α} {r r' : Except (Failure ε) α}
    {m n : Bool} (hx : Settles h x r m) (hy : Settles h x r' n) (w : Shared σ) : r = r' ∧ m = n := by
  refine ⟨(hx w).1.symm.trans (hy w).1, ?_⟩
  have hframe := (hx (w.modifyRegisters h fun r => r.mapStack (·.push ""))).2.symm.trans (hy _).2
  rw [Shared.get_modifyRegisters_self] at hframe
  have hflag := congrArg (fun r : Registers => r.stack.frames.head?.map Frame.cacheable) hframe
  simpa [Registers.absorb, Registers.mapStack, FrameStack.absorb, FrameStack.push] using hflag

variable {ω₁ σ₁ ω₂ σ₂ : Type} [DataModel ω₁ σ₁] [DataModel ω₂ σ₂] {ctx₁ : Context ω₁} {ctx₂ : Context ω₂}

/-- In both contexts the output has one and the same answer in every state, and it marks in both or in neither. -/
def Context.Matches (ctx₁ : Context ω₁) (ctx₂ : Context ω₂) (v : Variable) : Prop :=
  ∃ r m, Run.Settles ctx₁.registers (ctx₁.evaluate v) r m ∧ Run.Settles ctx₂.registers (ctx₂.evaluate v) r m

/-- An output matches if its variable has the same value in both contexts, and the objects are pure. -/
theorem Context.matches_of_lookup_eq {ctx₁ ctx₂ : Context ω₁} (hp : ctx₁.Pure) (hh : ctx₁.registers = ctx₂.registers)
    {v : Variable} (h : ctx₁.lookup v.name = ctx₂.lookup v.name) : ctx₁.Matches ctx₂ v := by
  obtain ⟨r, m, hs, -⟩ := hp.settles_decorated v
  refine ⟨r, m, hs, ?_⟩
  rw [evaluate, h, hh] at hs
  exact hs

/-- The same variables are decorated in both contexts, the others match, and no object does anything to the registers of
the render but mark. -/
structure Counterparts (ctx₁ : Context ω₁) (ctx₂ : Context ω₂) : Prop where
  decorated : ∀ name, ctx₁.Decorated name ↔ ctx₂.Decorated name
  others : ∀ v, ¬ctx₁.Decorated v.name → ctx₁.Matches ctx₂ v
  confined₁ : ctx₁.Confined Registers.Marking
  confined₂ : ctx₂.Confined Registers.Marking

/-- An output of a decorated variable marks, if no object does anything but mark. -/
theorem Context.Confined.marks_decorated {ctx : Context ω₁} (hc : ctx.Confined Registers.Marking) {v : Variable}
    (hd : ctx.Decorated v.name) (w : Shared σ₁) :
    ((ctx.evaluate v).run w).2.registers.get ctx.registers = (w.registers.get ctx.registers).absorb true ∅ := by
  obtain ⟨r, ⟨m, hbefore⟩, n, hafter⟩ := hc.marks bound_marking (hd.meets w)
  rw [hbefore, Registers.markUncacheable_eq_absorb] at hafter
  simp only [Registers.absorb_absorb, NameSet.union_empty, Bool.or_true, Bool.true_or] at hafter
  exact hafter

namespace Counterparts

/-- The outcomes of an output in both contexts. -/
def Outcome (ctx₁ : Context ω₁) (ctx₂ : Context ω₂) (v : Variable) (value : String) (b : Bool) : Prop :=
  (ctx₁.Decorated v.name ∧ b = true) ∨
    (¬ctx₁.Decorated v.name ∧ Run.Settles ctx₁.registers (ctx₁.evaluate v) (.ok value) b ∧
      Run.Settles ctx₂.registers (ctx₂.evaluate v) (.ok value) b)

/-- In a context the outputs have these outcomes, if each settles in both contexts unless it is decorated. -/
theorem outcomes_of {R : Variable → String → Bool → Prop} {ctx : Context ω₁} (hc : ctx.Confined Registers.Marking)
    (hd : ∀ v value, ctx.Decorated v.name → R v value true)
    (ho : ∀ v, ¬ctx.Decorated v.name → ∃ r m, Run.Settles ctx.registers (ctx.evaluate v) r m ∧
      ∀ value, r = .ok value → R v value m) : Environment.Outcomes ctx R := by
  intro v w value w' hr
  by_cases hdec : ctx.Decorated v.name
  · have hmarks := hc.marks_decorated hdec w
    rw [hr] at hmarks
    exact ⟨true, hd v value hdec, hmarks⟩
  · obtain ⟨r, m, hs, hR⟩ := ho v hdec
    have hw := hs w
    rw [hr] at hw
    exact ⟨m, hR value hw.1.symm, hw.2⟩

theorem outcomes₁ (hc : Counterparts ctx₁ ctx₂) : Environment.Outcomes ctx₁ (Outcome ctx₁ ctx₂) := by
  refine outcomes_of hc.confined₁ (fun v value hd => Or.inl ⟨hd, rfl⟩) fun v hd => ?_
  obtain ⟨r, m, h₁, h₂⟩ := hc.others v hd
  refine ⟨r, m, h₁, ?_⟩
  rintro value rfl
  exact Or.inr ⟨hd, h₁, h₂⟩

theorem outcomes₂ (hc : Counterparts ctx₁ ctx₂) : Environment.Outcomes ctx₂ (Outcome ctx₁ ctx₂) := by
  refine outcomes_of hc.confined₂ (fun v value hd => Or.inl ⟨(hc.decorated v.name).mpr hd, rfl⟩) fun v hd => ?_
  have hd₁ : ¬ctx₁.Decorated v.name := fun h => hd ((hc.decorated v.name).mp h)
  obtain ⟨r, m, h₁, h₂⟩ := hc.others v hd₁
  refine ⟨r, m, h₂, ?_⟩
  rintro value rfl
  exact Or.inr ⟨hd₁, h₁, h₂⟩

/-- Outcomes of one output mark alike, and have one text unless the variable is decorated. -/
theorem Outcome.unique {v : Variable} {x y : String} {b c : Bool} (w : Shared σ₁) (hx : Outcome ctx₁ ctx₂ v x b)
    (hy : Outcome ctx₁ ctx₂ v y c) : b = c ∧ (¬ctx₁.Decorated v.name → x = y) := by
  rcases hx with ⟨hd, rfl⟩ | ⟨hd, hx, -⟩
  · rcases hy with ⟨-, rfl⟩ | ⟨hd', -⟩
    · exact ⟨rfl, fun hd' => absurd hd hd'⟩
    · exact absurd hd hd'
  · rcases hy with ⟨hd', -⟩ | ⟨-, hy, -⟩
    · exact absurd hd' hd
    · obtain ⟨hxy, rfl⟩ := hx.unique hy w
      exact ⟨rfl, fun _ => Except.ok.inj hxy⟩

end Counterparts

/-! ## Precompilations -/

namespace Environment

variable {C : Catalog} {w₁ : World σ₁} {w₂ : World σ₂} {t : Template} {p₁ p₂ : Precompiled}

/-- The hybrid source, the sources that are kept and the names of the texts that are kept do not depend on what the
decorated objects answer, unless the page itself shows them. -/
theorem precompile_noninterference (hc : Counterparts ctx₁ ctx₂) (hs₁ : w₁.source.Serves C) (hs₂ : w₂.source.Serves C)
    (hpolicy : (w₂.registers.get ctx₂.registers).policy = (w₁.registers.get ctx₁.registers).policy)
    (hown : ∀ v, .output v ∈ t.nodes → ¬ctx₁.Decorated v.name)
    (hr₁ : ((cached.precompile ctx₁ t).run w₁).1 = .ok p₁) (hr₂ : ((cached.precompile ctx₂ t).run w₂).1 = .ok p₂) :
    p₁.source = p₂.source ∧ p₁.artifacts.templates = p₂.artifacts.templates ∧
      ∀ n, n ∈ p₁.artifacts.renderedResults.names ↔ n ∈ p₂.artifacts.renderedResults.names := by
  obtain ⟨e₁, m₁, he₁, -, hsource₁, hartifacts₁⟩ := exists_expands_of_precompile hc.outcomes₁ hs₁ hr₁
  obtain ⟨e₂, m₂, he₂, -, hsource₂, hartifacts₂⟩ := exists_expands_of_precompile hc.outcomes₂ hs₂ hr₂
  rw [hpolicy] at he₂
  have hmarks : ∀ v x y b c, Counterparts.Outcome ctx₁ ctx₂ v x b → Counterparts.Outcome ctx₁ ctx₂ v y c → b = c :=
    fun v x y b c hx hy => (hx.unique w₁.toShared hy).1
  have hstatic : ∀ v x y, Counterparts.Outcome ctx₁ ctx₂ v x false → Counterparts.Outcome ctx₁ ctx₂ v y false →
      x = y := by
    intro v x y hx hy
    refine (hx.unique w₁.toShared hy).2 fun hd => ?_
    have htrue : Counterparts.Outcome ctx₁ ctx₂ v x true := Or.inl ⟨hd, rfl⟩
    exact Bool.false_ne_true (hmarks v x x false true hx htrue)
  obtain ⟨hshape, -⟩ := he₁.shape_eq hmarks he₂
  have hkept : e₁.kept = e₂.kept := by rw [← e₁.kept_shape, hshape, e₂.kept_shape]
  refine ⟨?_, ?_, fun n => ?_⟩
  · rw [hsource₁, hsource₂]
    exact he₁.emitted_eq hmarks hstatic he₂
      (Or.inr fun v hv x y b c hx hy => (hx.unique w₁.toShared hy).2 (hown v hv))
  · refine NameMap.ext_get? fun n => ?_
    rw [hartifacts₁, hartifacts₂, Expansion.templates_stored, Expansion.templates_stored, hkept]
  · have hmemo : (e₁.memo n).isSome = (e₂.memo n).isSome := by
      rw [← e₁.isSome_memo_shape, hshape, e₂.isSome_memo_shape]
    rw [NameMap.mem_names_iff, NameMap.mem_names_iff, hartifacts₁, hartifacts₂, Expansion.results_stored,
      Expansion.results_stored, Option.isSome_or, Option.isSome_or, hmemo]

end Environment

namespace Sample

theorem counterparts_context (name name' : String) : Counterparts (context name) (context name') where
  decorated key := by
    by_cases hk : key = "user"
    · subst hk
      exact iff_of_true (decorated_user name) (decorated_user name')
    · rw [Context.Decorated, Context.Decorated, lookup_context, lookup_context, if_neg hk, if_neg hk]
      rfl
  others v hd := by
    have hv : v.name ≠ "user" := fun hv => hd (hv ▸ decorated_user name)
    have hregisters : (context name).registers = (context name').registers := rfl
    refine Context.matches_of_lookup_eq (pure_context name).1 hregisters ?_
    rw [lookup_context, lookup_context, if_neg hv, if_neg hv]
  confined₁ := (pure_context name).1.confined bound_marking
  confined₂ := (pure_context name').1.confined bound_marking

theorem not_decorated_of_mem_page {name : String} {v : Variable} (hv : .output v ∈ page.nodes) :
    ¬(context name).Decorated v.name := by
  obtain rfl : v = ⟨"title", []⟩ := by simpa [page] using hv
  rintro ⟨o, ho, -⟩
  cases (lookup_context name "title").symm.trans ho

/-- The page of the sample site, precompiled for Ann and for Bob. -/
theorem precompile_page_noninterference :
    (precompiled "Ann").source = (precompiled "Bob").source ∧
      (precompiled "Ann").artifacts.templates = (precompiled "Bob").artifacts.templates := by
  obtain ⟨hsource, htemplates, -⟩ := Environment.precompile_noninterference (counterparts_context "Ann" "Bob")
    serves_world serves_world rfl (fun v => not_decorated_of_mem_page) (precompile_page "Ann") (precompile_page "Bob")
  exact ⟨hsource, htemplates⟩

/-- A user of that name who leaves caching mode when the name is read. -/
def quitter (name : String) : DataObject Scripted :=
  .uncacheable (.bare {
    script := .mk "user" [("name", .mk [.cachingOff] (.json (.string name)))] none none 0 none false
    cell := 0
    registers := some ⟨0⟩ }) (some ⟨0⟩)

/-- The sample context with that user. -/
def quitting (name : String) : Context Scripted :=
  (context name).assign "user" (.object (quitter name))

/-- A page of two rows. -/
def rows : Template :=
  ⟨[.inclusion ⟨" ", '\'', "row"⟩, .inclusion ⟨" ", '\'', "row"⟩]⟩

/-- Without the premise on the decorated objects their answers can be told. The user leaves caching mode in the first
row, so the second one is not tracked, and the name gets into the source. -/
theorem precompile_rows_interference :
    (∀ key, key ≠ "user" → (quitting "Ann").lookup key = (quitting "Bob").lookup key) ∧
      (quitting "Ann").Decorated "user" ∧ (quitting "Bob").Decorated "user" ∧ (∀ v, .output v ∉ rows.nodes) ∧
      ((Environment.cached.precompile (quitting "Ann") rows).run world).1.map Precompiled.source =
        .ok "\x7b% include 'row' %\x7dHi Ann!" ∧
      ((Environment.cached.precompile (quitting "Bob") rows).run world).1.map Precompiled.source =
        .ok "\x7b% include 'row' %\x7dHi Bob!" := by
  have hlookup : ∀ name key, (quitting name).lookup key =
      if key = "user" then .object (quitter name) else (context name).lookup key := by
    intro name key
    simp only [quitting, Context.lookup, Context.assign, NameMap.get?_insert]
    split <;> rfl
  refine ⟨fun key hk => ?_, ⟨quitter "Ann", hlookup "Ann" "user", Or.inl rfl⟩,
    ⟨quitter "Bob", hlookup "Bob" "user", Or.inl rfl⟩, fun v hv => ?_, ?_, ?_⟩
  · simp only [hlookup, lookup_context, if_neg hk]
  · simp [rows] at hv
  · cbv
  · cbv

end Sample

end HybridTemplate
