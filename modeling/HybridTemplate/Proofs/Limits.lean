import HybridTemplate.Proofs.Course
import HybridTemplate.Proofs.Descent

/-!
# The limit on the depth of inclusions

The limit ends every render, and has no other say in it.

* `NeverTooDeep` — objects that do not report the error of the limit themselves;
* `Course.tooDeep` — then only the limit is ever reported, however deep a render started;
* `Course.withLimit` — a course on which the limit had no say is one under any greater limit: each inclusion on it came
  to its nodes, or failed for its source;
* `Course.grounded` — nodes that succeed include only names from which every chain of inclusions comes to an end;
* `render_within_limit` — what this says of renders.
-/

namespace HybridTemplate

open World

variable {ω σ : Type}

/-! ## Objects -/

section

variable [DataModel ω σ]

/-- The objects in `held` do not fail with the error of the limit, and the objects they answer are in `held` as well. -/
structure NeverTooDeep (held : ω → Prop) : Prop where
  invoke : ∀ o, held o → ∀ member w k,
    ((DataModel.invoke o member).run w).1 ≠ .error (.error (.nestingTooDeep k))
  toOutput : ∀ o, held o → ∀ w k, ((DataModel.toOutput o).run w).1 ≠ .error (.error (.nestingTooDeep k))
  answer : ∀ o, held o → ∀ member w o', ((DataModel.invoke o member).run w).1 = .ok (.object o') → held o'.core

/-- No object within reach of the variables fails with the error of the limit. -/
def Context.NeverTooDeep (ctx : Context ω) : Prop :=
  ∃ held : ω → Prop, HybridTemplate.NeverTooDeep held ∧ ∀ name, (ctx.lookup name).In held

theorem Value.path_neverTooDeep {held : ω → Prop} (ho : NeverTooDeep held) (keys : List String) {v : Value ω}
    (hv : v.In held) (w : Shared σ) (k : Nat) :
    ((do (← v.getAll keys).render : ObjectRun σ String).run w).1 ≠ .error (.error (.nestingTooDeep k)) := by
  induction keys generalizing v w with
  | nil =>
    cases v with
    | json j => exact fun h => nomatch h
    | object o =>
      show ((o.access "to_output" DataModel.toOutput).run w).1 ≠ _
      rw [DataObject.access_run]
      exact ho.toOutput o.core (hv o rfl) _ k
  | cons key keys ih =>
    rw [path_cons]
    rcases hget : (v.get key).run w with ⟨f | v', w'⟩
    · rw [Run.bind_run_of_error hget]
      rintro ⟨⟩
      cases v with
      | json j => cases hget
      | object o =>
        have hget : (o.access key fun o => DataModel.invoke o key).run w = _ := hget
        rw [DataObject.access_run] at hget
        exact ho.invoke o.core (hv o rfl) key _ k (congrArg Prod.fst hget)
    · rw [Run.bind_run_of_ok hget]
      refine ih ?_ w'
      cases v with
      | json j =>
        obtain ⟨rfl, -⟩ := Run.pure_eq_ok hget
        rintro o ⟨⟩
      | object o =>
        rintro o' rfl
        have hget : (o.access key fun o => DataModel.invoke o key).run w = _ := hget
        rw [DataObject.access_run] at hget
        exact ho.answer o.core (hv o rfl) key _ o' (congrArg Prod.fst hget)

theorem Context.NeverTooDeep.evaluate {ctx : Context ω} (hc : ctx.NeverTooDeep) (v : Variable) (w : Shared σ)
    (k : Nat) : ((ctx.evaluate v).run w).1 ≠ .error (.error (.nestingTooDeep k)) := by
  obtain ⟨held, ho, hin⟩ := hc
  exact Value.path_neverTooDeep ho v.members (hin v.name) w k

end

/-! ## Courses -/

/-- The context with another limit. -/
def Context.withLimit (ctx : Context ω) (limit : Nat) : Context ω :=
  { ctx with includeLimit := limit }

/-- A result on which the limit may have had a say: its error, or an abort, which may stand in place of it. -/
def CutShort (r : Rendered) : Prop :=
  (∃ k, r = .error (.error (.nestingTooDeep k))) ∨ ∃ a, r = .error (.abort a)

theorem map_append_eq_error {r : Rendered} {text : String} {f : Failure RenderError}
    (h : r.map (text ++ ·) = .error f) : r = .error f := by
  cases r with
  | ok _ => cases h
  | error _ => exact h

theorem not_cutShort_of_map {r : Rendered} {text : String} (h : ¬CutShort (r.map (text ++ ·))) : ¬CutShort r := by
  rintro (⟨k, rfl⟩ | ⟨a, rfl⟩)
  · exact h (.inl ⟨k, rfl⟩)
  · exact h (.inr ⟨a, rfl⟩)

theorem exists_ok_of_map {r : Rendered} {f : String → String} {text : String} (h : r.map f = .ok text) :
    ∃ text', r = .ok text' := by
  cases r with
  | ok text' => exact ⟨text', rfl⟩
  | error _ => cases h

/-- A body that the layers fail on for another reason than the limit has not met it. -/
theorem Closed.not_cutShort {r e : Rendered} {u w' : World σ} (h : Closed r u e w') (he : ¬CutShort e) :
    ¬CutShort r := by
  have herror : ∀ f, r = .error f → e = .error f := by
    rintro f rfl
    obtain ⟨f', rfl⟩ := h.failed f rfl
    obtain hf | rfl | ⟨⟨text, hr⟩, -⟩ := h.failure f' rfl
    · rw [hf]
    · exact absurd (.inr ⟨_, rfl⟩) he
    · cases hr
  rintro (⟨k, hr⟩ | ⟨a, hr⟩)
  · exact he (.inl ⟨k, herror _ hr⟩)
  · exact he (.inr ⟨a, herror _ hr⟩)

namespace Environment

variable {env : Environment} {ctx : Context ω} {inside : List String} {nodes : List Node} {tag : Inclusion}
  {w u w' : World σ} {t : Template} {ms : List (Moment σ)} {r e : Rendered} {read : Bool} {f : Failure RenderError}
  {limit : Nat}

theorem Enters.withLimit (h : Enters ctx tag w t u) (hlimit : ctx.includeLimit ≤ limit) :
    Enters (ctx.withLimit limit) tag w t u :=
  ⟨h.limit.trans_le hlimit, h.template⟩

theorem Enters.depth_le (h : Enters ctx tag w t u) : u.includeDepth ≤ ctx.includeLimit := by
  rw [h.state]
  exact h.limit

/-- The source fails an inclusion under any greater limit as well. -/
theorem Misses.withLimit (h : Misses ctx tag w read f u) (hf : ¬CutShort (.error f))
    (hlimit : ctx.includeLimit ≤ limit) : Misses (ctx.withLimit limit) tag w read f u := by
  cases h with
  | tooDeep => exact absurd (.inl ⟨_, rfl⟩) hf
  | unread h hr => exact .unread (h.trans_le hlimit) hr
  | faulty h hr hp => exact .faulty (h.trans_le hlimit) hr hp

/-- The error of the limit, if the native strategy fails with it. -/
theorem Misses.tooDeep_eq (h : Misses ctx tag w read f u) {k : Nat} (hf : f = .error (.nestingTooDeep k))
    (hw : w.includeDepth ≤ ctx.includeLimit) : k = ctx.includeLimit := by
  cases h with
  | tooDeep hlimit =>
    cases hf
    exact Nat.le_antisymm hw hlimit
  | unread => cases hf
  | faulty => cases hf

/-- If an inclusion fails with the error of the limit, then this comes from its body. -/
theorem Direct.tooDeep_of_closes (hd : env.Direct) (hend : env.Closes ctx tag w r u (.error f) w') {k : Nat}
    (hf : f = .error (.nestingTooDeep k)) : r = .error f := by
  obtain hr | rfl | ⟨-, e, rfl⟩ := (hd.closed hend).failure f rfl
  · exact hr
  · cases hf
  · cases hf

theorem Misses.lt_limit (h : Misses ctx tag w true f u) : w.includeDepth < ctx.includeLimit := by
  cases h with
  | unread hlimit => exact hlimit
  | faulty hlimit => exact hlimit

theorem runLayers_withLimit (ctx : Context ω) (limit : Nat) (tag : Inclusion) (x : RenderRun σ String)
    (layers : List Layer) : runLayers (ctx.withLimit limit) tag x layers = runLayers ctx tag x layers := by
  induction layers with
  | nil => rfl
  | cons layer layers ih =>
    cases layer with
    | cacheAware => exact congrArg (cacheAware ctx tag) ih
    | custom reply => exact congrArg (fun x => (reply tag).follow x) ih

theorem closes_withLimit (h : env.Closes ctx tag w r u e w') (limit : Nat) :
    env.Closes (ctx.withLimit limit) tag w r u e w' := by
  rw [Closes, runLayers_withLimit]
  exact h

variable [DataModel ω σ]

/-- At no moment is a render deeper than the limit. -/
theorem Course.depth_le (h : Course env ctx inside nodes w ms r w') (hd : env.Direct)
    (hw : w.includeDepth ≤ ctx.includeLimit) {m : Moment σ} (hm : m ∈ ms) :
    m.world.includeDepth ≤ ctx.includeLimit := by
  induction h with
  | nil => cases hm
  | text _ ih =>
    obtain rfl | hm := List.mem_cons.mp hm
    · exact hw
    · exact ih hw hm
  | output hv _ ih =>
    obtain rfl | hm := List.mem_cons.mp hm
    · exact hw
    · exact ih ((place_of_evaluate hv).depth ▸ hw) hm
  | outputFails =>
    obtain rfl := List.mem_singleton.mp hm
    exact hw
  | inclusion hb hbody hend _ ihb ih =>
    simp only [List.cons_append, List.mem_cons, List.mem_append] at hm
    rcases hm with rfl | rfl | hm | hm
    · exact hw
    · exact hb.limit
    · exact ihb hb.depth_le hm
    · exact ih ((hd.closes_place hb (hbody.place hd) hend).depth ▸ hw) hm
  | inclusionFails hb hbody hend ihb =>
    simp only [List.mem_cons] at hm
    rcases hm with rfl | rfl | hm
    · exact hw
    · exact hb.limit
    · exact ihb hb.depth_le hm
  | @stopped inside tag nodes w u w' read f f' hb =>
    obtain rfl | hm := List.mem_cons.mp hm
    · exact hw
    · cases read with
      | true =>
        obtain rfl := List.mem_singleton.mp hm
        exact hb.lt_limit
      | false => cases hm

/-- If nodes fail with the error of the limit, then it carries the limit. -/
theorem Course.tooDeep (h : Course env ctx inside nodes w ms r w') (hd : env.Direct) (ho : ctx.NeverTooDeep)
    (hw : w.includeDepth ≤ ctx.includeLimit) {k : Nat} (hr : r = .error (.error (.nestingTooDeep k))) :
    k = ctx.includeLimit := by
  induction h with
  | nil => cases hr
  | text _ ih => exact ih hw (map_append_eq_error hr)
  | output hv _ ih => exact ih ((place_of_evaluate hv).depth ▸ hw) (map_append_eq_error hr)
  | @outputFails inside v nodes w w' f hv =>
    have hv : ((ctx.evaluate v).run w.toShared).1 = .error f := congrArg Prod.fst hv
    exact absurd (hv.trans hr) (ho.evaluate v w.toShared k)
  | inclusion hb hbody hend _ ihb ih =>
    exact ih ((hd.closes_place hb (hbody.place hd) hend).depth ▸ hw) (map_append_eq_error hr)
  | inclusionFails hb hbody hend ihb =>
    obtain rfl := Except.error.inj hr
    exact ihb hb.depth_le (hd.tooDeep_of_closes hend rfl)
  | @stopped inside tag nodes w u w' read f f' hb hend =>
    obtain rfl := Except.error.inj hr
    have hf := hd.tooDeep_of_closes hend rfl
    exact hb.tooDeep_eq (Except.error.inj hf) ((env.opened_place ctx tag w).1 ▸ hw)

/-- What the limit had no say in goes the same course under any greater limit. -/
theorem Course.withLimit (h : Course env ctx inside nodes w ms r w') (hd : env.Direct)
    (hlimit : ctx.includeLimit ≤ limit) (hr : ¬CutShort r) :
    Course env (ctx.withLimit limit) inside nodes w ms r w' := by
  induction h with
  | nil => exact .nil
  | text _ ih => exact .text (ih (not_cutShort_of_map hr))
  | output hv _ ih => exact .output hv (ih (not_cutShort_of_map hr))
  | outputFails hv => exact .outputFails hv
  | inclusion hb hbody hend _ ihb ih =>
    obtain ⟨text, rfl⟩ := (hd.closed hend).exists_ok
    have hok : ¬CutShort (.ok text) := by
      rintro (⟨_, h⟩ | ⟨_, h⟩) <;> cases h
    exact .inclusion (hb.withLimit hlimit) (ihb hok) (closes_withLimit hend limit)
      (ih (not_cutShort_of_map hr))
  | inclusionFails hb hbody hend ihb =>
    exact .inclusionFails (hb.withLimit hlimit) (ihb ((hd.closed hend).not_cutShort hr))
      (closes_withLimit hend limit)
  | stopped hb hend =>
    exact .stopped (hb.withLimit ((hd.closed hend).not_cutShort hr) hlimit) (closes_withLimit hend limit)

/-- Nodes that succeed include only names that are grounded. -/
theorem Course.grounded {C : Catalog} (h : Course env ctx inside nodes w ms r w') (hd : env.Direct)
    (hs : w.source.Serves C) {text : String} (hr : r = .ok text) :
    ∀ tag, .inclusion tag ∈ nodes → C.Grounded tag.key := by
  induction h generalizing text with
  | nil => exact fun tag htag => nomatch htag
  | text _ ih =>
    obtain ⟨text, hr⟩ := exists_ok_of_map hr
    intro tag htag
    obtain htag | htag := List.mem_cons.mp htag
    · cases htag
    · exact ih hs hr tag htag
  | output hv _ ih =>
    obtain ⟨text, hr⟩ := exists_ok_of_map hr
    intro tag htag
    obtain htag | htag := List.mem_cons.mp htag
    · cases htag
    · exact ih (hs.congr (place_of_evaluate hv).answer) hr tag htag
  | outputFails => cases hr
  | @inclusion inside tag t nodes w w₁ w₂ w₃ w' ms ms' r r' text hb hbody hend _ ihb ih =>
    -- The body has succeeded, so all that it includes is grounded.
    obtain ⟨text', hr'⟩ := exists_ok_of_map hr
    obtain ⟨inner, rfl⟩ := (hd.closed hend).exists_ok
    have hinner := ihb (hs.congr hb.place.2) rfl
    have hlater := ih (hs.congr (hd.closes_place hb (hbody.place hd) hend).answer) hr'
    have hholds : C.Holds tag.key t := hb.holds ((env.opened_place ctx tag w).2 ▸ hs)
    intro tag' htag'
    obtain htag' | htag' := List.mem_cons.mp htag'
    · cases htag'
      exact hholds.grounded hinner
    · exact hlater tag' htag'
  | inclusionFails => cases hr
  | stopped => cases hr

/-! ## Renders -/

/-- A render comes to an end, and on the way is never deeper than the limit. However it ends, it is as deep as it was
when it started, and if it ends with the error of the limit then this carries the limit. Any greater limit makes no
difference, unless the limit was reached or the render was aborted. If inclusions that the template reaches form a
cycle, then no limit makes the render succeed. -/
theorem render_within_limit {C : Catalog} (henv : env = native ∨ env = cached) (hs : w.source.Serves C)
    (ho : ctx.NeverTooDeep) (hw : w.includeDepth ≤ ctx.includeLimit) (t : Template) :
    (∃ ms r w', Course env ctx [] t.nodes (renderStart ctx w) ms r w' ∧
      (env.render ctx t).run w = (r, { w' with toShared := w'.toShared.report .renderEnded }) ∧
      ∀ m ∈ ms, m.world.includeDepth ≤ ctx.includeLimit) ∧
    ((env.render ctx t).run w).2.includeDepth = w.includeDepth ∧
    (∀ k, ((env.render ctx t).run w).1 = .error (.error (.nestingTooDeep k)) → k = ctx.includeLimit) ∧
    (∀ limit, ctx.includeLimit ≤ limit → ¬CutShort ((env.render ctx t).run w).1 →
      (env.render (ctx.withLimit limit) t).run w = (env.render ctx t).run w) ∧
    ∀ n k, t.Reaches C n → C.Includes n k → C.Reaches k n →
      ∀ limit text, ((env.render (ctx.withLimit limit) t).run w).1 ≠ .ok text := by
  have hd : env.Direct := by
    rcases henv with rfl | rfl
    · exact direct_native
    · exact direct_cached
  obtain ⟨ms, r, w', h⟩ := exists_course hd ctx [] t.nodes (renderStart ctx w)
  have hrun := h.render hd
  refine ⟨⟨ms, r, w', h, hrun, fun m => h.depth_le hd hw⟩, ?_, fun k hk => ?_, fun limit hlimit hcut => ?_, ?_⟩
  · rw [hrun]
    exact (h.place hd).depth
  · rw [hrun] at hk
    exact h.tooDeep hd ho hw hk
  · rw [hrun] at hcut ⊢
    exact (h.withLimit hd hlimit hcut).render hd
  · intro n k hn hincludes hback limit text hok
    obtain ⟨ms, r, w', h⟩ := exists_course hd (ctx.withLimit limit) [] t.nodes (renderStart ctx w)
    have hrun : (env.render (ctx.withLimit limit) t).run w = _ := h.render hd
    rw [hrun] at hok
    obtain ⟨tag, htag, hreaches⟩ := hn
    have hgrounded : C.Grounded n := (h.grounded hd hs hok tag htag).of_reaches hreaches
    exact hgrounded.not_reaches hincludes hback

end Environment

/-! ## A site with a loop -/

/-- Objects by steady scripts fail with errors of their own. -/
theorem Scripted.neverTooDeep : NeverTooDeep fun o : Scripted => o.script.Steady where
  invoke o ho member w k := by
    show ((o.invoke member).run w).1 ≠ _
    rw [Scripted.invoke, Run.bind_run_of_ok (Run.modify_run _ _)]
    split
    · rename_i act hact
      obtain ⟨value, rfl⟩ := ho.actFor? member act hact
      rw [(o.answers_perform member value _).1]
      rintro ⟨⟩
    · rintro ⟨⟩
  toOutput o ho w k := by
    show (o.toOutput.run w).1 ≠ _
    rw [Scripted.toOutput]
    rcases o.script.height with _ | n
    · rintro ⟨⟩
    · rw [Scripted.outputWithin]
      split
      · rintro ⟨⟩
      · rw [Run.bind_run_of_ok (Run.modify_run _ _)]
        split
        · rintro ⟨⟩
        · rename_i act hact
          obtain ⟨value, rfl⟩ := ho.output act hact
          rw [Run.bind_run_of_ok (Prod.ext (o.answers_perform "to_output" value _).1 rfl)]
          rintro ⟨⟩
  answer o ho member w o' hr := by
    obtain ⟨r, ha, hne⟩ := Scripted.answers_invoke ho member
    exact absurd ((ha w).1.symm.trans hr) (hne o')

namespace Sample

/-- The texts of the site, with two that include each other. -/
def loopingTexts : String → Option String
  | "tick" => some "\x7b% include 'tock' %\x7d"
  | "tock" => some "\x7b% include 'tick' %\x7d"
  | name => texts name

/-- The catalog of these texts. -/
def loopingCatalog : Catalog := fun n =>
  match loopingTexts n with
  | some text => .ok text
  | none => .error (.notFound n)

theorem holds_tick : loopingCatalog.Holds "tick" ⟨[.inclusion ⟨" ", '\'', "tock"⟩]⟩ :=
  ⟨_, rfl, by cbv⟩

theorem holds_tock : loopingCatalog.Holds "tock" ⟨[.inclusion ⟨" ", '\'', "tick"⟩]⟩ :=
  ⟨_, rfl, by cbv⟩

/-- The site with the loop. -/
def looping : World Heap :=
  { world with source := .ofLookup loopingTexts }

/-- A page that gets into the loop. -/
def loopPage : Template :=
  ⟨[.text "Tick: ", .inclusion ⟨" ", '\'', "tick"⟩]⟩

theorem neverTooDeep_context (name : String) (limit : Nat) : ((context name).withLimit limit).NeverTooDeep := by
  refine ⟨_, Scripted.neverTooDeep, fun key => ?_⟩
  show ((context name).lookup key).In _
  rw [lookup_context]
  split
  · rintro o ⟨⟩
    exact steady_script name
  · split <;> (rintro o ⟨⟩)

/-- Two inclusions inside one another are enough for the page, so that any greater limit gives the same. No limit is
enough for the loop. -/
theorem render_page_within_limit :
    (∀ limit, 2 ≤ limit →
      ((Environment.cached.render ((context "Ann").withLimit limit) page).run looping).1 = .ok "Home: Hi Ann!!") ∧
    ∀ limit text,
      ((Environment.cached.render ((context "Ann").withLimit limit) loopPage).run looping).1 ≠ .ok text := by
  have hserves : looping.source.Serves loopingCatalog := Source.serves_ofLookup loopingTexts
  have henv : Environment.cached = Environment.native ∨ Environment.cached = Environment.cached := .inr rfl
  have htwo : ((Environment.cached.render ((context "Ann").withLimit 2) page).run looping).1 =
      .ok "Home: Hi Ann!!" := by
    cbv
  constructor
  · obtain ⟨-, -, -, hgreater, -⟩ := Environment.render_within_limit henv hserves
      (neverTooDeep_context "Ann" 2) (Nat.zero_le 2) page
    have hcut : ¬CutShort ((Environment.cached.render ((context "Ann").withLimit 2) page).run looping).1 := by
      rw [htwo]
      rintro (⟨_, h⟩ | ⟨_, h⟩) <;> cases h
    intro limit hlimit
    rw [← htwo, ← hgreater limit hlimit hcut]
    rfl
  · obtain ⟨-, -, -, -, hcycle⟩ := Environment.render_within_limit henv hserves
      (neverTooDeep_context "Ann" 2) (Nat.zero_le 2) loopPage
    have htick : loopPage.Reaches loopingCatalog "tick" :=
      ⟨⟨" ", '\'', "tick"⟩, List.mem_cons_of_mem _ List.mem_cons_self, Relation.ReflTransGen.refl⟩
    have hforth : loopingCatalog.Includes "tick" "tock" :=
      (Catalog.includes_iff holds_tick).mpr ⟨_, List.mem_cons_self, rfl⟩
    have hback : loopingCatalog.Includes "tock" "tick" :=
      (Catalog.includes_iff holds_tock).mpr ⟨_, List.mem_cons_self, rfl⟩
    exact hcycle "tick" "tock" htick hforth (.single hback)

end Sample

end HybridTemplate
