import HybridTemplate.Proofs.Delegates

/-!
# Two runs side by side

Two runs are related if from related states they end alike: both give answers that belong together, or both fail in the
same way, and the states in which they end are related again.

* `EndsAlike`, `Run.Related` — with one rule for each way to put runs together;
* `Congruent` — a relation between states that does not tell what a render does outside the registers: it reads
  templates, reports, and goes deeper. The names that it reads may be limited to a set which is closed under what the
  templates include. `related_renderWith` and `related_renderTemplate` hold for all of them;
* `Coupled` — the relation does not tell either what is done to the registers of a handle on each side, as long as it is
  the same and puts no other names on the stack. Then an inclusion ends alike on both sides, whatever the layers are
  (`related_expandWithin`), and so do all nodes of a template (`related_renderNodes`).
-/

namespace HybridTemplate

open Registers (Handle)
open World

/-! ## Runs -/

/-- Both are answers, which are in `q`, or both are the same failure. -/
inductive EndsAlike {φ α β : Type} (q : α → β → Prop) : Except φ α → Except φ β → Prop
  | ok {a : α} {b : β} (h : q a b) : EndsAlike q (.ok a) (.ok b)
  | error (e : φ) : EndsAlike q (.error e) (.error e)

namespace EndsAlike

variable {φ α β γ : Type} {q : α → β → Prop} {r : Except φ α} {r' : Except φ β}

theorem mono {q' : α → β → Prop} (h : EndsAlike q r r') (hq : ∀ a b, q a b → q' a b) : EndsAlike q' r r' := by
  cases h with
  | ok h => exact .ok (hq _ _ h)
  | error e => exact .error e

theorem eq {r r' : Except φ α} (h : EndsAlike Eq r r') : r = r' := by
  cases h with
  | ok h => rw [h]
  | error e => rfl

theorem of_eq {q : α → α → Prop} (hq : ∀ a, q a a) {r r' : Except φ α} (h : r = r') : EndsAlike q r r' := by
  subst h
  rcases r with e | a
  · exact .error e
  · exact .ok (hq a)

theorem of_ok {a : α} {b : β} (h : EndsAlike q r r') (hr : r = .ok a) (hr' : r' = .ok b) : q a b := by
  subst hr hr'
  cases h with
  | ok h => exact h

/-- What ends like the same third thing ends alike. -/
theorem any_of_common {r'' : Except φ γ} (h : EndsAlike (fun _ _ => True) r r'')
    (h' : EndsAlike (fun _ _ => True) r' r'') : EndsAlike (fun _ _ => True) r r' := by
  cases h with
  | ok _ => cases h' with | ok _ => exact .ok trivial
  | error e => cases h' with | error _ => exact .error e

end EndsAlike

namespace Run

variable {s s' ε ε' α β γ δ : Type} {R : s → s' → Prop} {q : α → β → Prop} {p : γ → δ → Prop} {x : Run s ε α}
  {y : Run s' ε β}

/-- From states in `R` both runs end alike, with answers in `q`, and in states in `R`. -/
def Related (R : s → s' → Prop) (q : α → β → Prop) (x : Run s ε α) (y : Run s' ε β) : Prop :=
  ∀ w w', R w w' → EndsAlike q (x.run w).1 (y.run w').1 ∧ R (x.run w).2 (y.run w').2

theorem Related.mono {q' : α → β → Prop} (hx : Related R q x y) (hq : ∀ a b, q a b → q' a b) : Related R q' x y :=
  fun w w' hw => ⟨(hx w w' hw).1.mono hq, (hx w w' hw).2⟩

/-- Answers that belong together are both known to be in `Q` if those of the first run are. -/
theorem Related.and_yields {Q : α → Prop} (hx : Related R q x y) (hQ : Yields x Q) :
    Related R (fun a b => q a b ∧ Q a) x y := by
  intro w w' hw
  obtain ⟨hans, hend⟩ := hx w w' hw
  refine ⟨?_, hend⟩
  rcases hr : x.run w with ⟨r, w₁⟩
  rw [hr] at hans
  generalize (y.run w').1 = r' at hans ⊢
  cases hans with
  | ok h => exact .ok ⟨h, hQ w _ w₁ hr⟩
  | error e => exact .error e

theorem related_pure {a : α} {b : β} (h : q a b) : Related R q (pure a : Run s ε α) (pure b : Run s' ε β) :=
  fun _ _ hw => ⟨.ok h, hw⟩

theorem related_fail (e : Failure ε) : Related R q (fail e : Run s ε α) (fail e : Run s' ε β) :=
  fun _ _ hw => ⟨.error e, hw⟩

theorem related_look {g : s → α} {g' : s' → β} (h : ∀ w w', R w w' → q (g w) (g' w')) :
    Related R q (look g : Run s ε α) (look g' : Run s' ε β) :=
  fun w w' hw => ⟨.ok (h w w' hw), hw⟩

theorem related_modify {g : s → s} {g' : s' → s'} (h : ∀ w w', R w w' → R (g w) (g' w')) :
    Related R Eq (modify g : Run s ε Unit) (modify g' : Run s' ε Unit) :=
  fun w w' hw => ⟨.ok rfl, h w w' hw⟩

theorem related_ofExcept {r : Except (Failure ε) α} {r' : Except (Failure ε) β} (h : EndsAlike q r r') :
    Related R q (ofExcept r : Run s ε α) (ofExcept r' : Run s' ε β) := by
  cases h with
  | ok h => exact related_pure h
  | error e => exact related_fail e

/-- From two states sequences end alike if their first parts do, and what comes second does from where these end. -/
theorem bind_endsAlike {f : α → Run s ε γ} {g : β → Run s' ε δ} {w : s} {w' : s'}
    (hx : EndsAlike q (x.run w).1 (y.run w').1 ∧ R (x.run w).2 (y.run w').2)
    (hf : ∀ a b w₁ w₁', q a b → R w₁ w₁' →
      EndsAlike p ((f a).run w₁).1 ((g b).run w₁').1 ∧ R ((f a).run w₁).2 ((g b).run w₁').2) :
    EndsAlike p ((x >>= f).run w).1 ((y >>= g).run w').1 ∧ R ((x >>= f).run w).2 ((y >>= g).run w').2 := by
  obtain ⟨hans, hend⟩ := hx
  rcases hx₁ : x.run w with ⟨r, w₁⟩
  rcases hy₁ : y.run w' with ⟨r', w₁'⟩
  rw [hx₁, hy₁] at hans hend
  cases hans with
  | error e =>
    rw [bind_run_of_error hx₁, bind_run_of_error hy₁]
    exact ⟨.error e, hend⟩
  | ok hq =>
    rw [bind_run_of_ok hx₁, bind_run_of_ok hy₁]
    exact hf _ _ _ _ hq hend

/-- Sequences are related if their first parts are, and what comes second is for all answers that belong together. -/
theorem Related.bind {f : α → Run s ε γ} {g : β → Run s' ε δ} (hx : Related R q x y)
    (hf : ∀ a b, q a b → Related R p (f a) (g b)) : Related R p (x >>= f) (y >>= g) :=
  fun w w' hw => bind_endsAlike (hx w w' hw) fun a b w₁ w₁' hq hR => hf a b hq w₁ w₁' hR

theorem Related.attempt (hx : Related R q x y) :
    Related R (EndsAlike q) (x.attempt : Run s ε' _) (y.attempt : Run s' ε' _) :=
  fun w w' hw => ⟨.ok (hx w w' hw).1, (hx w w' hw).2⟩

theorem Related.catchError (hx : Related R q x y) :
    Related R (EndsAlike q) (x.catchError : Run s ε _) (y.catchError : Run s' ε _) := by
  intro w w' hw
  obtain ⟨hans, hend⟩ := hx w w' hw
  rw [catchError_run, catchError_run]
  generalize x.run w = end₁ at hans hend ⊢
  generalize y.run w' = end₂ at hans hend ⊢
  obtain ⟨r, w₁⟩ := end₁
  obtain ⟨r', w₁'⟩ := end₂
  cases hans with
  | ok h => exact ⟨.ok (.ok h), hend⟩
  | error e =>
    cases e with
    | error e => exact ⟨.ok (.error e), hend⟩
    | abort a => exact ⟨.error _, hend⟩

end Run

/-! ## Names on the stack -/

/-- The name is that of a frame or is recorded in one. -/
def FrameStack.Mentions (s : FrameStack) (n : String) : Prop :=
  ∃ f ∈ s.frames, n = f.name ∨ n ∈ f.inlined

/-- All names that the frame has are in `K`. -/
def Frame.NamesIn (K : String → Prop) (f : Frame) : Prop :=
  K f.name ∧ ∀ n ∈ f.inlined, K n

namespace FrameStack

variable {s : FrameStack} {n : String}

theorem mentions_push {name : String} (h : (s.push name).Mentions n) : n = name ∨ s.Mentions n := by
  obtain ⟨f, hf, hn⟩ := h
  rcases List.mem_cons.mp hf with rfl | hf
  · exact Or.inl (hn.resolve_right (NameSet.notMem_empty n))
  · exact Or.inr ⟨f, hf, hn⟩

theorem mentions_pop? {s' : FrameStack} {f : Frame} (hp : s.pop? = some (f, s')) :
    ((n = f.name ∨ n ∈ f.inlined) → s.Mentions n) ∧ (s'.Mentions n → s.Mentions n) := by
  obtain ⟨π, _ | ⟨g, fs⟩⟩ := s
  · cases hp
  · cases hp
    exact ⟨fun hn => ⟨_, List.mem_cons_self, hn⟩, fun ⟨f', hf', hn⟩ => ⟨f', List.mem_cons_of_mem _ hf', hn⟩⟩

theorem mentions_recordInlined {f : Frame} (h : (s.recordInlined f).Mentions n) :
    (n = f.name ∨ n ∈ f.inlined) ∨ s.Mentions n := by
  obtain ⟨π, _ | ⟨g, fs⟩⟩ := s
  · exact Or.inr h
  · obtain ⟨f', hf', hn⟩ := h
    rcases List.mem_cons.mp hf' with rfl | hf'
    · simp only [Frame.inline, NameSet.mem_insert, NameSet.mem_union] at hn
      rcases hn with hn | hn | hn | hn
      · exact Or.inr ⟨g, List.mem_cons_self, Or.inl hn⟩
      · exact Or.inl (Or.inl hn)
      · exact Or.inr ⟨g, List.mem_cons_self, Or.inr hn⟩
      · exact Or.inl (Or.inr hn)
    · exact Or.inr ⟨f', List.mem_cons_of_mem _ hf', hn⟩

end FrameStack

/-- The change puts no names on the stack but those in `K`. -/
def Registers.NamesOnly (K : String → Prop) (g : Registers → Registers) : Prop :=
  ∀ r n, (g r).stack.Mentions n → K n ∨ r.stack.Mentions n

/-- The template of the source includes only names in `K`, if there is one. -/
def IncludesOnly (K : String → Prop) (source : String) : Prop :=
  ∀ t, Template.parse source = .ok t → ∀ tag, .inclusion tag ∈ t.nodes → K tag.key

/-! ## States -/

variable {σ σ' : Type} {K : String → Prop}

/-- A relation between states that does not tell whether both sides have read a name in `K`, reported or gone deeper.
The templates of these names include no others. -/
structure Congruent (K : String → Prop) (R : World σ → World σ' → Prop) : Prop where
  depth : ∀ {w w'}, R w w' → w.includeDepth = w'.includeDepth
  atDepth : ∀ {w w'} (d : Nat), R w w' → R { w with includeDepth := d } { w' with includeDepth := d }
  read : ∀ {w w'} {name : String}, K name → R w w' → (w.source.read name).1 = (w'.source.read name).1 ∧
    R { w with source := (w.source.read name).2 } { w' with source := (w'.source.read name).2 }
  includes : ∀ {w w'} {name : String}, K name → R w w' → ∀ text, (w.source.read name).1 = .ok text →
    IncludesOnly K text := by intros; exact fun _ _ _ _ => trivial
  report : ∀ {w w'} (e : Event), R w w' →
    R { w with toShared := w.toShared.report e } { w' with toShared := w'.toShared.report e }

/-- Nor does the relation tell what was done to the registers of `h` on the one side and of `h'` on the other, where the
names on the stack are in `K`. -/
structure Coupled (h h' : Handle) (K : String → Prop) (R : World σ → World σ' → Prop) : Prop extends Congruent K R where
  registers : ∀ {w w'}, R w w' → w.registers.get h = w'.registers.get h'
  mentions : ∀ {w w'}, R w w' → ∀ n, (w.registers.get h).stack.Mentions n → K n := by intros; exact trivial
  modify : ∀ {w w'} {g : Registers → Registers}, Registers.NamesOnly K g → R w w' →
    R { w with toShared := w.toShared.modifyRegisters h g } { w' with toShared := w'.toShared.modifyRegisters h' g }

section

variable {α β : Type} {R : World σ → World σ' → Prop} {q : α → β → Prop} {x : RenderRun σ α} {y : RenderRun σ' β}

namespace Congruent

variable (hR : Congruent K R)

include hR

theorem related_report (e : Event) : Run.Related R Eq (World.report e : RenderRun σ Unit)
    (World.report e : RenderRun σ' Unit) :=
  Run.related_modify fun _ _ hw => hR.report e hw

theorem related_readTemplate {name : String} (hname : K name) :
    Run.Related R (fun text text' => text = text' ∧ IncludesOnly K text) (readTemplate name : RenderRun σ String)
      (readTemplate name : RenderRun σ' String) := by
  intro w w' hw
  obtain ⟨hans, hend⟩ := hR.read hname hw
  have hincludes := hR.includes hname hw
  have hans' : w.source.answer w.source.reads name = w'.source.answer w'.source.reads name := hans
  rw [readTemplate_run, readTemplate_run, ← hans']
  rcases htext : w.source.answer w.source.reads name with e | text
  · exact ⟨.error _, hend⟩
  · exact ⟨.ok ⟨rfl, hincludes text htext⟩, hend⟩

theorem related_readTemplates {names : List String} (hnames : ∀ n ∈ names, K n) :
    Run.Related R Eq (readTemplates names : RenderRun σ _) (readTemplates names : RenderRun σ' _) := by
  induction names with
  | nil => exact Run.related_pure rfl
  | cons name names ih =>
    obtain ⟨hname, hnames⟩ := List.forall_mem_cons.mp hnames
    refine (hR.related_readTemplate hname).bind fun text text' htext => (ih hnames).bind fun rest rest' hrest => ?_
    exact Run.related_pure (by rw [htext.1, hrest])

/-- Where no more inclusions are allowed, both sides fail with the depth. -/
theorem related_tooDeep :
    Run.Related R q (do .raise (.nestingTooDeep (← Run.look World.includeDepth)) : RenderRun σ α)
      (do .raise (.nestingTooDeep (← Run.look World.includeDepth)) : RenderRun σ' β) := by
  refine (Run.related_look (q := Eq) fun _ _ hw => hR.depth hw).bind fun d d' hd => ?_
  subst hd
  exact Run.related_fail _

theorem related_nested {limit : Nat} (hx : Run.Related R q x y) :
    Run.Related R q (nested id limit x) (nested id limit y) := by
  intro w w' hw
  rw [nested_run, nested_run, hR.depth hw]
  split
  · exact ⟨.error _, hw⟩
  · have hdeeper : R w.deeper w'.deeper := by
      rw [deeper, deeper, hR.depth hw]
      exact hR.atDepth _ hw
    obtain ⟨hans, hend⟩ := hx _ _ hdeeper
    refine ⟨hans, ?_⟩
    rw [shallower, shallower, hR.depth hend]
    exact hR.atDepth _ hend

end Congruent

namespace Coupled

variable {h h' : Handle} (hR : Coupled h h' K R)

include hR

theorem related_registersOf : Run.Related R Eq (registersOf h : RenderRun σ _) (registersOf h' : RenderRun σ' _) :=
  Run.related_look fun _ _ hw => hR.registers hw

theorem related_modifyRegisters {g : Registers → Registers} (hg : Registers.NamesOnly K g) :
    Run.Related R Eq (modifyRegisters h g : RenderRun σ _) (modifyRegisters h' g : RenderRun σ' _) :=
  Run.related_modify fun _ _ hw => hR.modify hg hw

theorem related_popFrame :
    Run.Related R (fun f f' => f = f' ∧ f.NamesIn K) (popFrame h : RenderRun σ Frame)
      (popFrame h' : RenderRun σ' Frame) := by
  intro w w' hw
  have hmentions := hR.mentions hw
  rw [hR.registers hw] at hmentions
  simp only [popFrame, Run.run, hR.registers hw]
  rcases hp : (w'.registers.get h').stack.pop? with _ | ⟨f, stack⟩
  · exact ⟨.error _, hw⟩
  · have hpop := fun n => FrameStack.mentions_pop? (n := n) hp
    have hnames : f.NamesIn K :=
      ⟨hmentions f.name ((hpop f.name).1 (Or.inl rfl)), fun n hn => hmentions n ((hpop n).1 (Or.inr hn))⟩
    exact ⟨.ok ⟨rfl, hnames⟩, hR.modify (fun r n hn => Or.inl (hmentions n ((hpop n).2 hn))) hw⟩

theorem related_track {name : String} (hname : K name) (hx : Run.Related R q x y) :
    Run.Related R (fun a b => q a.1 b.1 ∧ a.2 = b.2 ∧ a.2.NamesIn K) (track h name x) (track h' name y) := by
  have hpush : Registers.NamesOnly K (·.mapStack (·.push name)) := by
    intro r n hn
    rcases FrameStack.mentions_push hn with rfl | hn
    · exact Or.inl hname
    · exact Or.inr hn
  refine (hR.related_modifyRegisters hpush).bind fun _ _ _ => hx.attempt.bind fun r r' hr => ?_
  refine hR.related_popFrame.bind fun f f' hf => (Run.related_ofExcept hr).bind fun a b hab => ?_
  exact Run.related_pure ⟨hab, hf⟩

end Coupled

end

/-! ## Renders -/

/-- A relation between texts that holds for one and the same, and for joined texts if it does for their parts. -/
structure Joins (q : String → String → Prop) : Prop where
  refl : ∀ x, q x x
  append : ∀ {x x' y y'}, q x x' → q y y' → q (x ++ y) (x' ++ y')

theorem joins_eq : Joins Eq :=
  ⟨fun _ => rfl, fun hx hy => by rw [hx, hy]⟩

theorem joins_true : Joins fun _ _ => True :=
  ⟨fun _ => trivial, fun _ _ => trivial⟩

theorem Reply.related_follow {R : World σ → World σ' → Prop} {inner : RenderRun σ String} {inner' : RenderRun σ' String}
    (hi : Run.Related R Eq inner inner') (reply : Reply) :
    Run.Related R Eq (reply.follow inner) (reply.follow inner') := by
  induction reply with
  | give result =>
    cases result with
    | ok text => exact Run.related_pure rfl
    | error e => exact Run.related_fail _
  | ask next ih => exact hi.catchError.bind fun r r' hr => hr.eq ▸ ih r

variable {ω ω' : Type} {ctx : Context ω} {ctx' : Context ω'} {R : World σ → World σ' → Prop}

namespace Coupled

/-- What follows the bracket reads the template of the inclusion and those that its frame mentions. -/
theorem related_settleInclusion (hR : Coupled ctx.registers ctx'.registers K R) {tag : Inclusion} (htag : K tag.key)
    (text : String) {frame : Frame} (hframe : frame.NamesIn K) :
    Run.Related R Eq (settleInclusion ctx tag text frame : RenderRun σ String)
      (settleInclusion ctx' tag text frame : RenderRun σ' String) := by
  rw [settleInclusion, settleInclusion]
  split
  · have hrecord : Registers.NamesOnly K (·.mapStack (·.recordInlined frame)) := by
      intro r n hn
      rcases FrameStack.mentions_recordInlined hn with (rfl | hn) | hn
      · exact Or.inl hframe.1
      · exact Or.inl (hframe.2 n hn)
      · exact Or.inr hn
    refine (hR.related_report _).bind fun _ _ _ => (hR.related_modifyRegisters hrecord).bind fun _ _ _ => ?_
    exact Run.related_pure rfl
  · have hnames : ∀ n ∈ frame.inlined.toList, K n := fun n hn => hframe.2 n (NameSet.mem_toList.mp hn)
    refine (hR.related_readTemplate htag).bind fun source source' hsource => ?_
    refine (hR.related_readTemplates hnames).bind fun inlined inlined' hinlined => ?_
    refine hR.related_registersOf.bind fun r r' hr => ?_
    obtain rfl := hsource.1
    subst hinlined hr
    have hstore : Registers.NamesOnly K (·.mapStore (·.defer tag.key source text inlined)) := fun _ _ hn => Or.inr hn
    refine (hR.related_report _).bind fun _ _ _ => (hR.related_modifyRegisters hstore).bind fun _ _ _ => ?_
    exact Run.related_pure rfl

theorem related_cacheAware (hR : Coupled ctx.registers ctx'.registers K R) {tag : Inclusion} (htag : K tag.key)
    {inner : RenderRun σ String} {inner' : RenderRun σ' String} (hi : Run.Related R Eq inner inner') :
    Run.Related R Eq (cacheAware ctx tag inner) (cacheAware ctx' tag inner') := by
  refine hR.related_registersOf.bind fun r r' hr => ?_
  subst hr
  split
  · refine (hR.related_track htag hi).bind fun ⟨text, frame⟩ ⟨text', frame'⟩ ⟨htext, hframe, hnames⟩ => ?_
    obtain rfl : text = text' := htext
    obtain rfl : frame = frame' := hframe
    exact hR.related_settleInclusion htag text hnames
  · exact hi

theorem related_runLayers (hR : Coupled ctx.registers ctx'.registers K R) {tag : Inclusion} (htag : K tag.key)
    {native : RenderRun σ String} {native' : RenderRun σ' String} (hn : Run.Related R Eq native native')
    (layers : List Layer) : Run.Related R Eq (runLayers ctx tag native layers) (runLayers ctx' tag native' layers) := by
  induction layers with
  | nil => exact hn
  | cons layer layers ih =>
    cases layer with
    | cacheAware => exact hR.related_cacheAware htag ih
    | custom reply => exact Reply.related_follow ih _

end Coupled

namespace Environment

variable [DataModel ω σ] [DataModel ω' σ'] {q : String → String → Prop} {expand : Inclusion → RenderRun σ String}
  {expand' : Inclusion → RenderRun σ' String}

/-- Nodes end alike if their outputs and inclusions do. -/
theorem related_renderWith (hq : Joins q) {nodes : List Node}
    (hv : ∀ v, .output v ∈ nodes → Run.Related R q (lift (ctx.evaluate v)) (lift (ctx'.evaluate v)))
    (hx : ∀ tag, .inclusion tag ∈ nodes → Run.Related R q (expand tag) (expand' tag)) :
    Run.Related R q (renderWith ctx expand nodes) (renderWith ctx' expand' nodes) := by
  induction nodes with
  | nil => exact Run.related_pure (hq.refl "")
  | cons node nodes ih =>
    have hnode : Run.Related R q (renderNode ctx expand node) (renderNode ctx' expand' node) := by
      cases node with
      | text content => exact Run.related_pure (hq.refl content)
      | output v => exact hv v List.mem_cons_self
      | inclusion tag => exact hx tag List.mem_cons_self
    have hrest := ih (fun v hm => hv v (List.mem_cons_of_mem _ hm)) fun tag hm => hx tag (List.mem_cons_of_mem _ hm)
    exact hnode.bind fun x x' hxx => hrest.bind fun y y' hyy => Run.related_pure (hq.append hxx hyy)

/-- A template ends alike on both sides if its outputs and inclusions do. -/
theorem related_renderTemplate (hR : Congruent K R) (hq : Joins q)
    (hv : ∀ v, Run.Related R q (lift (ctx.evaluate v)) (lift (ctx'.evaluate v)))
    (hx : ∀ tag, K tag.key → Run.Related R q (expand tag) (expand' tag)) {name : String} (hname : K name) :
    Run.Related R q (renderTemplate ctx expand name) (renderTemplate ctx' expand' name) := by
  refine (hR.related_readTemplate hname).bind fun source source' ⟨hsource, hincludes⟩ => ?_
  subst hsource
  rcases ht : Template.parse source with e | t
  · exact Run.related_fail _
  · exact related_renderWith hq (fun v _ => hv v) fun tag hm => hx tag (hincludes t ht tag hm)

/-- An inclusion ends alike in both contexts if outputs do, and if it goes through the layers on both sides alike. -/
theorem related_expandWithin_of_runLayers (hR : Congruent K R) (hlimit : ctx.includeLimit = ctx'.includeLimit)
    (hv : ∀ v, Run.Related R Eq (lift (ctx.evaluate v)) (lift (ctx'.evaluate v))) {env env' : Environment}
    (hl : ∀ tag native native', K tag.key → Run.Related R Eq native native' →
      Run.Related R Eq (runLayers ctx tag native env.layers) (runLayers ctx' tag native' env'.layers))
    (levels : Nat) (tag : Inclusion) (htag : K tag.key) :
    Run.Related R Eq (env.expandWithin ctx levels tag) (env'.expandWithin ctx' levels tag) := by
  induction levels generalizing tag with
  | zero =>
    rw [expandWithin, expandWithin]
    exact hl tag _ _ htag hR.related_tooDeep
  | succ levels ih =>
    rw [expandWithin, expandWithin, hlimit]
    exact hl tag _ _ htag (hR.related_nested (related_renderTemplate hR joins_eq hv ih htag))

/-- In coupled states an inclusion ends alike in both contexts if outputs do. -/
theorem related_expandWithin (hR : Coupled ctx.registers ctx'.registers K R)
    (hlimit : ctx.includeLimit = ctx'.includeLimit)
    (hv : ∀ v, Run.Related R Eq (lift (ctx.evaluate v)) (lift (ctx'.evaluate v))) (env : Environment) (levels : Nat)
    (tag : Inclusion) (htag : K tag.key) :
    Run.Related R Eq (env.expandWithin ctx levels tag) (env.expandWithin ctx' levels tag) :=
  related_expandWithin_of_runLayers hR.toCongruent hlimit hv
    (fun _ _ _ hk hn => hR.related_runLayers hk hn env.layers) levels tag htag

/-- The nodes of a template end alike if outputs do, and if inclusions do at every level. -/
theorem related_renderNodes_of_expandWithin (hR : Congruent K R) (hlimit : ctx.includeLimit = ctx'.includeLimit)
    (hq : Joins q) {env env' : Environment} (hv : ∀ v, Run.Related R q (lift (ctx.evaluate v)) (lift (ctx'.evaluate v)))
    (hx : ∀ levels tag, K tag.key →
      Run.Related R q (env.expandWithin ctx levels tag) (env'.expandWithin ctx' levels tag))
    {t : Template} (ht : ∀ tag, .inclusion tag ∈ t.nodes → K tag.key) :
    Run.Related R q (env.renderNodes ctx t) (env'.renderNodes ctx' t) := by
  refine (Run.related_look (q := Eq) fun w w' hw => ?_).bind fun levels levels' hlevels => ?_
  · rw [hlimit, hR.depth hw]
  · subst hlevels
    exact related_renderWith hq (fun v _ => hv v) fun tag hm => hx levels tag (ht tag hm)

theorem related_renderNodes (hR : Coupled ctx.registers ctx'.registers K R)
    (hlimit : ctx.includeLimit = ctx'.includeLimit)
    (hv : ∀ v, Run.Related R Eq (lift (ctx.evaluate v)) (lift (ctx'.evaluate v))) (env : Environment) {t : Template}
    (ht : ∀ tag, .inclusion tag ∈ t.nodes → K tag.key) :
    Run.Related R Eq (env.renderNodes ctx t) (env.renderNodes ctx' t) :=
  related_renderNodes_of_expandWithin hR.toCongruent hlimit joins_eq hv (related_expandWithin hR hlimit hv env) ht

/-- In coupled states precompilations end alike if their nodes do. -/
theorem related_precompile (hR : Coupled ctx.registers ctx'.registers K R) {env env' : Environment} {t t' : Template}
    (hnodes : Run.Related R Eq (env.renderNodes ctx t) (env'.renderNodes ctx' t')) :
    Run.Related R Eq (env.precompile ctx t) (env'.precompile ctx' t') := by
  have hreset : ∀ caching, Registers.NamesOnly K (·.reset.setCaching caching) := by
    rintro caching r n ⟨f, hf, -⟩
    cases hf
  refine hR.related_registersOf.bind fun before before' hbefore => ?_
  refine (hR.related_modifyRegisters (hreset _)).bind fun _ _ _ => (hR.related_report _).bind fun _ _ _ => ?_
  refine hnodes.attempt.bind fun result result' hresult => (hR.related_report _).bind fun _ _ _ => ?_
  refine hR.related_registersOf.bind fun after after' hafter => ?_
  obtain rfl := hbefore
  obtain rfl := hafter
  refine (hR.related_modifyRegisters (hreset _)).bind fun _ _ _ => ?_
  refine (Run.related_ofExcept hresult).bind fun source source' hs => ?_
  obtain rfl := hs
  exact (hR.related_report _).bind fun _ _ _ => Run.related_pure rfl

/-- Renders end alike if they start the nodes in related states and the nodes end alike. -/
theorem related_render (hR : Congruent K R) {env env' : Environment} {t t' : Template}
    (hnodes : Run.Related R q (env.renderNodes ctx t) (env'.renderNodes ctx' t')) {w : World σ} {w' : World σ'}
    (hw : R (renderStart ctx w) (renderStart ctx' w')) :
    EndsAlike q ((env.render ctx t).run w).1 ((env'.render ctx' t').run w').1 ∧
      R ((env.render ctx t).run w).2 ((env'.render ctx' t').run w').2 := by
  obtain ⟨hans, hend⟩ := hnodes _ _ hw
  rw [render_run, render_run]
  exact ⟨hans, hR.report .renderEnded hend⟩

end Environment

end HybridTemplate
