import HybridTemplate.Proofs.Endings

/-!
# The chronicle of a caching render

What a caching render does is more than what it answers: an inclusion that fails may have had inclusions in it that did
not. A `Chronicle` lists what happened, in order and whichever way it ends: outputs when they are evaluated, and
inclusions when they end.

* `Deed` — what happens, and `stored` — what this writes to the artifacts;
* `Chronicle` — the deeds of nodes, by induction on how they are rendered; every run has one (`exists_chronicle`), which
  ends as the run does (`Chronicle.run`);
* `Chronicle.store` — the artifacts after the run are what the deeds have stored, as long as objects write none.
-/

namespace HybridTemplate

open World

variable {ω σ : Type}

/-! ## Deeds -/

/-- Something that happens in a render. -/
inductive Deed (σ : Type) where
  /-- An output is evaluated in this state. -/
  | output (v : Variable) (w : Shared σ)
  /-- An inclusion ends. -/
  | visit (v : Visit)

/-- The artifacts after something has happened. -/
def Deed.stored : Deed σ → Option Artifacts → Option Artifacts
  | output _ _, a => a
  | visit v, a => v.stored a

/-- The artifacts after all that has happened. -/
def stored (ds : List (Deed σ)) (a : Option Artifacts) : Option Artifacts :=
  ds.foldl (fun a d => d.stored a) a

@[simp] theorem stored_nil (a : Option Artifacts) : stored ([] : List (Deed σ)) a = a := rfl

@[simp] theorem stored_cons (d : Deed σ) (ds : List (Deed σ)) (a : Option Artifacts) :
    stored (d :: ds) a = stored ds (d.stored a) := rfl

theorem stored_append (ds es : List (Deed σ)) (a : Option Artifacts) :
    stored (ds ++ es) a = stored es (stored ds a) := by
  unfold stored
  rw [List.foldl_append]

/-- What is under a name after an inclusion was deferred: its own source, a source of what was inlined beneath it, or
what was there before. -/
theorem Artifacts.templates_defer_cases (a : Artifacts) (name source text : String) (inlined : List (String × String))
    (n : String) :
    n = name ∧ (a.defer name source text inlined).templates.get? n = some source ∨
      (∃ kept, (n, kept) ∈ inlined ∧ (a.defer name source text inlined).templates.get? n = some kept) ∨
      n ≠ name ∧ n ∉ inlined.map Prod.fst ∧
        (a.defer name source text inlined).templates.get? n = a.templates.get? n := by
  have hfold : ∀ a : Artifacts,
      (∃ kept, (n, kept) ∈ inlined ∧
        (inlined.foldl (fun a e => a.insertTemplate e.1 e.2) a).templates.get? n = some kept) ∨
      n ∉ inlined.map Prod.fst ∧
        (inlined.foldl (fun a e => a.insertTemplate e.1 e.2) a).templates.get? n = a.templates.get? n := by
    induction inlined with
    | nil => exact fun a => .inr ⟨List.not_mem_nil, rfl⟩
    | cons e es ih =>
      intro a
      rw [List.foldl_cons]
      obtain ⟨kept, hmem, hkept⟩ | ⟨hnot, hkept⟩ := ih (a.insertTemplate e.1 e.2)
      · exact .inl ⟨kept, List.mem_cons_of_mem e hmem, hkept⟩
      · rw [hkept, insertTemplate, NameMap.get?_insert]
        by_cases hn : n = e.1
        · rw [if_pos hn]
          exact .inl ⟨e.2, List.mem_cons.mpr (.inl (Prod.ext hn rfl)), rfl⟩
        · rw [if_neg hn]
          exact .inr ⟨List.not_mem_cons_of_ne_of_not_mem hn hnot, rfl⟩
  rw [defer, insertResult, insertTemplate, NameMap.get?_insert]
  by_cases hn : n = name
  · rw [if_pos hn]
    exact .inl ⟨hn, rfl⟩
  · rw [if_neg hn]
    obtain h | h := hfold a
    · exact .inr (.inl h)
    · exact .inr (.inr ⟨hn, h⟩)

/-- The artifacts are left alone. -/
def Registers.SameStore (r r' : Registers) : Prop :=
  r'.store = r.store

theorem Registers.bound_sameStore : Bound Registers.SameStore where
  refl _ := rfl
  trans h₁ h₂ := h₂.trans h₁
  mark _ := rfl

/-! ## Chronicles -/

namespace Environment

variable [DataModel ω σ]

/-- What an inclusion renders inside its frame where `levels` more inclusions are allowed inside one another. -/
def nativeWithin (ctx : Context ω) : Nat → Inclusion → RenderRun σ String
  | 0, _ => do .raise (.nestingTooDeep (← Run.look World.includeDepth))
  | levels + 1, tag => includedBody ctx levels tag

theorem expandWithin_eq_map_answer (ctx : Context ω) (levels : Nat) (tag : Inclusion) :
    cached.expandWithin ctx levels tag =
      Ending.answer tag <$> endInclusion (σ := σ) ctx tag (nativeWithin ctx levels tag) := by
  rw [← cacheAware_eq_map_answer]
  cases levels with
  | zero => exact expandWithin_cached_zero ctx tag
  | succ levels => exact expandWithin_eq_includedBody levels tag

/-- Rendering the nodes from `w`, where `levels` more inclusions are allowed inside one another, does the deeds, ends as
`r` says and leaves `w'`. An inclusion is listed behind what happened in it. -/
inductive Chronicle (ctx : Context ω) : Nat → List Node → World σ → List (Deed σ) →
    Except (Failure RenderError) String → World σ → Prop
  | nil {levels : Nat} {w : World σ} : Chronicle ctx levels [] w [] (.ok "") w
  | text {levels : Nat} {content : String} {nodes : List Node} {w w' : World σ} {ds : List (Deed σ)}
      {r : Except (Failure RenderError) String} (h : Chronicle ctx levels nodes w ds r w') :
      Chronicle ctx levels (.text content :: nodes) w ds (r.map (content ++ ·)) w'
  | output {levels : Nat} {v : Variable} {value : String} {nodes : List Node} {w w₁ w' : World σ} {ds : List (Deed σ)}
      {r : Except (Failure RenderError) String} (hv : (lift (ctx.evaluate v)).run w = (.ok value, w₁))
      (h : Chronicle ctx levels nodes w₁ ds r w') :
      Chronicle ctx levels (.output v :: nodes) w (.output v w.toShared :: ds) (r.map (value ++ ·)) w'
  | outputFails {levels : Nat} {v : Variable} {nodes : List Node} {w w' : World σ} {f : Failure RenderError}
      (hv : (lift (ctx.evaluate v)).run w = (.error f, w')) :
      Chronicle ctx levels (.output v :: nodes) w [.output v w.toShared] (.error f) w'
  | inclusion {levels : Nat} {tag : Inclusion} {t : Template} {nodes : List Node} {w w₁ w₂ w₃ w' : World σ}
      {ds es : List (Deed σ)} {r r' : Except (Failure RenderError) String} {e : Ending} (hb : Begins ctx tag w t w₁)
      (hbody : Chronicle ctx levels t.nodes w₁ ds r w₂)
      (hend : (endInclusion ctx tag (nativeWithin ctx (levels + 1) tag)).run w = (.ok e, w₃))
      (h : Chronicle ctx (levels + 1) nodes w₃ es r' w') :
      Chronicle ctx (levels + 1) (.inclusion tag :: nodes) w
        (ds ++ .visit ⟨tag.key, w.source.reads, some e⟩ :: es) (r'.map (e.answer tag ++ ·)) w'
  /-- The inclusion fails after it has begun: in its nodes, or when the sources are read again. -/
  | inclusionFails {levels : Nat} {tag : Inclusion} {t : Template} {nodes : List Node} {w w₁ w₂ w' : World σ}
      {ds : List (Deed σ)} {r : Except (Failure RenderError) String} {f : Failure RenderError}
      (hb : Begins ctx tag w t w₁) (hbody : Chronicle ctx levels t.nodes w₁ ds r w₂)
      (hend : (endInclusion ctx tag (nativeWithin ctx (levels + 1) tag)).run w = (.error f, w')) :
      Chronicle ctx (levels + 1) (.inclusion tag :: nodes) w (ds ++ [.visit ⟨tag.key, w.source.reads, none⟩])
        (.error f) w'
  /-- The inclusion does not begin: the limit is reached, or there is no template. -/
  | stopped {levels : Nat} {tag : Inclusion} {nodes : List Node} {w w' : World σ} {f : Failure RenderError}
      (hb : levels = 0 ∨ ∀ t w₁, ¬Begins ctx tag w t w₁)
      (hend : (endInclusion ctx tag (nativeWithin ctx levels tag)).run w = (.error f, w')) :
      Chronicle ctx levels (.inclusion tag :: nodes) w [.visit ⟨tag.key, w.source.reads, none⟩] (.error f) w'

variable {ctx : Context ω} {levels : Nat} {nodes : List Node} {tag : Inclusion} {w w' : World σ} {ds : List (Deed σ)}
  {r : Except (Failure RenderError) String}

theorem renderWith_cons_run_of_ok {expand : Inclusion → RenderRun σ String} (node : Node) {w₁ : World σ} {text : String}
    (hn : (renderNode ctx expand node).run w = (.ok text, w₁)) (nodes : List Node) :
    (renderWith ctx expand (node :: nodes)).run w =
      (((renderWith ctx expand nodes).run w₁).1.map (text ++ ·), ((renderWith ctx expand nodes).run w₁).2) := by
  rw [renderWith, Run.bind_run_of_ok hn, ← Run.map_run]
  rfl

theorem renderWith_cons_run_of_error {expand : Inclusion → RenderRun σ String} (node : Node) {w₁ : World σ}
    {f : Failure RenderError} (hn : (renderNode ctx expand node).run w = (.error f, w₁)) (nodes : List Node) :
    (renderWith ctx expand (node :: nodes)).run w = (.error f, w₁) := by
  rw [renderWith, Run.bind_run_of_error hn]

theorem renderNode_run_of_ok {e : Ending} {w₁ : World σ}
    (hend : (endInclusion ctx tag (nativeWithin ctx levels tag)).run w = (.ok e, w₁)) :
    (renderNode ctx (cached.expandWithin ctx levels) (.inclusion tag)).run w = (.ok (e.answer tag), w₁) := by
  show (cached.expandWithin ctx levels tag).run w = _
  rw [expandWithin_eq_map_answer, Run.map_run, hend]
  rfl

theorem renderNode_run_of_error {f : Failure RenderError} {w₁ : World σ}
    (hend : (endInclusion ctx tag (nativeWithin ctx levels tag)).run w = (.error f, w₁)) :
    (renderNode ctx (cached.expandWithin ctx levels) (.inclusion tag)).run w = (.error f, w₁) := by
  show (cached.expandWithin ctx levels tag).run w = _
  rw [expandWithin_eq_map_answer, Run.map_run, hend]
  rfl

/-- A chronicle ends as the run does. -/
theorem Chronicle.run (h : Chronicle ctx levels nodes w ds r w') :
    (renderWith ctx (cached.expandWithin ctx levels) nodes).run w = (r, w') := by
  induction h with
  | nil => rfl
  | @text levels content nodes w w' ds r h ih => rw [renderWith_cons_run_of_ok (.text content) rfl, ih]
  | @output levels v value nodes w w₁ w' ds r hv h ih => rw [renderWith_cons_run_of_ok (.output v) hv, ih]
  | @outputFails levels v nodes w w' f hv => exact renderWith_cons_run_of_error (.output v) hv _
  | inclusion hb hbody hend h _ ih => rw [renderWith_cons_run_of_ok _ (renderNode_run_of_ok hend), ih]
  | inclusionFails hb hbody hend => exact renderWith_cons_run_of_error _ (renderNode_run_of_error hend) _
  | stopped hb hend => exact renderWith_cons_run_of_error _ (renderNode_run_of_error hend) _

/-- What an inclusion does that does not begin: it fails, and has read its source at most. -/
theorem nativeWithin_run_of_not_begins (hb : levels = 0 ∨ ∀ t w₁, ¬Begins ctx tag w t w₁) :
    ∃ f source, (nativeWithin ctx levels tag).run (bodyStart ctx tag w) =
        (.error f, { bodyStart ctx tag w with source }) ∧
      (source = (bodyStart ctx tag w).source ∨ source = ((bodyStart ctx tag w).source.read tag.key).2) := by
  cases levels with
  | zero => exact ⟨_, _, rfl, .inl rfl⟩
  | succ levels =>
    have hb : ∀ t w₁, ¬Begins ctx tag w t w₁ := hb.resolve_left (Nat.succ_ne_zero levels)
    show ∃ f source, (includedBody ctx levels tag).run (bodyStart ctx tag w) = _ ∧ _
    unfold includedBody
    rw [nested_run]
    split
    · exact ⟨_, _, rfl, .inl rfl⟩
    · rename_i hlimit
      have hlimit : w.includeDepth < ctx.includeLimit := bodyStart_includeDepth ctx tag w ▸ Nat.lt_of_not_le hlimit
      have htemplate : ∃ f, (renderTemplate ctx (cached.expandWithin ctx levels) tag.key).run
          (bodyStart ctx tag w).deeper =
            (.error f, { (bodyStart ctx tag w).deeper with
              source := ((bodyStart ctx tag w).deeper.source.read tag.key).2 }) := by
        have hread := readTemplate_run (bodyStart ctx tag w).deeper tag.key
        unfold renderTemplate
        split at hread
        · rename_i source _
          rw [Run.bind_run_of_ok hread]
          rcases hparse : Template.parse source with e | t
          · exact ⟨_, rfl⟩
          · exact absurd ⟨hlimit, source, hread, hparse⟩ (hb t _)
        · exact ⟨_, Run.bind_run_of_error hread⟩
      obtain ⟨f, hf⟩ := htemplate
      refine ⟨f, ((bodyStart ctx tag w).source.read tag.key).2, ?_, .inr rfl⟩
      rw [hf]
      rfl

/-- How an inclusion ends that does not begin: with a failure of its body. -/
theorem ends_of_not_begins {e : Except (Failure RenderError) Ending} (hb : levels = 0 ∨ ∀ t w₁, ¬Begins ctx tag w t w₁)
    (hend : (endInclusion ctx tag (nativeWithin ctx levels tag)).run w = (e, w')) :
    ∃ f source, Ends ctx tag w (.error f) { bodyStart ctx tag w with source } e w' ∧ w.source.Onward source := by
  obtain ⟨f, source, hn, hsource⟩ := nativeWithin_run_of_not_begins hb
  refine ⟨f, source, endInclusion_ends hn hend, ?_⟩
  rw [bodyStart_source] at hsource
  obtain rfl | rfl := hsource
  · exact .refl _
  · exact w.source.onward_read tag.key

/-- How an inclusion ends that begins: after what happens in it. -/
theorem Chronicle.ends {t : Template} {w₁ w₂ : World σ} {e : Except (Failure RenderError) Ending}
    (hbody : Chronicle ctx levels t.nodes w₁ ds r w₂) (hb : Begins ctx tag w t w₁)
    (hend : (endInclusion ctx tag (nativeWithin ctx (levels + 1) tag)).run w = (e, w')) :
    Ends ctx tag w r w₂.shallower e w' := by
  have hrun := hb.run levels
  rw [hbody.run] at hrun
  exact endInclusion_ends hrun hend

theorem onward_evaluate {v : Variable} {r : Except (Failure RenderError) String}
    (hv : (lift (ctx.evaluate v)).run w = (r, w')) : w.source.Onward w'.source := by
  have hw' : w'.source = w.source := congrArg (·.2.source) hv.symm
  rw [hw']
  exact .refl _

theorem store_evaluate (hc : ctx.Confined Registers.SameStore) {v : Variable}
    {r : Except (Failure RenderError) String} (hv : (lift (ctx.evaluate v)).run w = (r, w')) :
    (w'.registers.get ctx.registers).store = (w.registers.get ctx.registers).store := by
  have hstore := hc.within Registers.bound_sameStore v w.toShared
  rwa [← congrArg (·.2.toShared) hv]

/-- A chronicle reads sources at most. -/
theorem Chronicle.onward (h : Chronicle ctx levels nodes w ds r w') : w.source.Onward w'.source := by
  induction h with
  | nil => exact .refl _
  | text _ ih => exact ih
  | output hv _ ih => exact (onward_evaluate hv).trans ih
  | outputFails hv => exact onward_evaluate hv
  | inclusion hb hbody hend _ ihbody ih =>
    have hends := hbody.ends hb hend
    exact ((hb.onward.trans ihbody).trans hends.onward).trans ih
  | inclusionFails hb hbody hend ihbody =>
    have hends := hbody.ends hb hend
    exact (hb.onward.trans ihbody).trans hends.onward
  | stopped hb hend =>
    obtain ⟨f, source, hends, hsource⟩ := ends_of_not_begins hb hend
    exact hsource.trans hends.onward

/-- From before its begin to its end an inclusion reads sources at most. -/
theorem Chronicle.onward_end {t : Template} {w₁ w₂ : World σ} {e : Except (Failure RenderError) Ending}
    (hbody : Chronicle ctx levels t.nodes w₁ ds r w₂) (hb : Begins ctx tag w t w₁)
    (hend : (endInclusion ctx tag (nativeWithin ctx (levels + 1) tag)).run w = (e, w')) :
    w.source.Onward w'.source :=
  (hb.onward.trans hbody.onward).trans (hbody.ends hb hend).onward

/-- If objects leave the artifacts alone, these are what the deeds have stored. -/
theorem Chronicle.store (hc : ctx.Confined Registers.SameStore) (h : Chronicle ctx levels nodes w ds r w') :
    (w'.registers.get ctx.registers).store = stored ds (w.registers.get ctx.registers).store := by
  induction h with
  | nil => rfl
  | text _ ih => exact ih
  | output hv _ ih => rw [ih, store_evaluate hc hv, stored_cons, Deed.stored]
  | outputFails hv => exact store_evaluate hc hv
  | @inclusion levels tag t nodes w w₁ w₂ w₃ w' ds es r r' e hb hbody hend _ ihbody ih =>
    have hends := hbody.ends hb hend
    rw [ih, hends.store w.source.reads, stored_append, stored_cons, ← hb.store, ← ihbody]
    rfl
  | @inclusionFails levels tag t nodes w w₁ w₂ w' ds r f hb hbody hend ihbody =>
    have hends := hbody.ends hb hend
    rw [hends.store w.source.reads, stored_append, stored_cons, stored_nil, ← hb.store, ← ihbody]
    rfl
  | @stopped levels tag nodes w w' f hb hend =>
    obtain ⟨f', source, hends, -⟩ := ends_of_not_begins hb hend
    rw [hends.store w.source.reads, stored_cons, stored_nil]
    exact bodyStart_store ctx tag w

/-- Its source, as it was answered after the reads `earlier`, was parsed and rendered to the text; this ended in `u`. -/
def Renders (ctx : Context ω) (s : Source) (name : String) (earlier : List String) (parsed text : String)
    (u : World σ) : Prop :=
  s.answer earlier name = .ok parsed ∧ ∃ t levels w₁,
    Template.parse parsed = .ok t ∧ w₁.source.reads = name :: earlier ∧
    (renderWith ctx (cached.expandWithin ctx levels) t.nodes).run w₁ = (.ok text, u)

theorem Renders.onward {s s' : Source} {name parsed text : String} {earlier : List String} {u : World σ}
    (h : Renders ctx s name earlier parsed text u) (hs : s.Onward s') : Renders ctx s' name earlier parsed text u :=
  ⟨by rw [hs.answer]; exact h.1, h.2⟩

theorem Chronicle.renders {t : Template} {w₁ w₂ : World σ} {text : String} (hb : Begins ctx tag w t w₁)
    (hbody : Chronicle ctx levels t.nodes w₁ ds (.ok text) w₂) :
    ∃ parsed, Renders ctx w.source tag.key w.source.reads parsed text w₂ := by
  obtain ⟨hw₁, parsed, hanswer, hparse⟩ := hb.read
  refine ⟨parsed, hanswer, t, levels, w₁, hparse, ?_, hbody.run⟩
  rw [hw₁]
  rfl

/-- Nodes have a chronicle if inclusions in front of others have one. -/
theorem exists_chronicle_of_inclusion {levels : Nat} (hi : ∀ tag nodes, (∀ w : World σ, ∃ ds r w',
      Chronicle ctx levels nodes w ds r w') → ∀ w, ∃ ds r w', Chronicle ctx levels (.inclusion tag :: nodes) w ds r w')
    (nodes : List Node) (w : World σ) : ∃ ds r w', Chronicle ctx levels nodes w ds r w' := by
  induction nodes generalizing w with
  | nil => exact ⟨_, _, _, .nil⟩
  | cons node nodes ih =>
    cases node with
    | text content =>
      obtain ⟨ds, r, w', h⟩ := ih w
      exact ⟨_, _, _, .text h⟩
    | output v =>
      rcases hv : (lift (ctx.evaluate v)).run w with ⟨f | value, w₁⟩
      · exact ⟨_, _, _, .outputFails hv⟩
      · obtain ⟨ds, r, w', h⟩ := ih w₁
        exact ⟨_, _, _, .output hv h⟩
    | inclusion tag => exact hi tag nodes ih w

/-- Every run has a chronicle. -/
theorem exists_chronicle (ctx : Context ω) (levels : Nat) (nodes : List Node) (w : World σ) :
    ∃ ds, Chronicle ctx levels nodes w ds ((renderWith ctx (cached.expandWithin ctx levels) nodes).run w).1
      ((renderWith ctx (cached.expandWithin ctx levels) nodes).run w).2 := by
  have hstopped : ∀ {levels tag} {w : World σ} (nodes), (levels = 0 ∨ ∀ t w₁, ¬Begins ctx tag w t w₁) →
      ∃ ds r w', Chronicle ctx levels (.inclusion tag :: nodes) w ds r w' := by
    intro levels tag w nodes hb
    rcases hend : (endInclusion ctx tag (nativeWithin ctx levels tag)).run w with ⟨e, w'⟩
    obtain ⟨f, source, hends, -⟩ := ends_of_not_begins hb hend
    obtain ⟨f', rfl⟩ := hends.error
    exact ⟨_, _, _, .stopped hb hend⟩
  have hall : ∃ ds r w', Chronicle ctx levels nodes w ds r w' := by
    induction levels generalizing nodes w with
    | zero => exact exists_chronicle_of_inclusion (fun _ nodes _ _ => hstopped nodes (.inl rfl)) nodes w
    | succ levels ihl =>
      refine exists_chronicle_of_inclusion (fun tag nodes ih w => ?_) nodes w
      by_cases hb : ∃ t w₁, Begins ctx tag w t w₁
      · obtain ⟨t, w₁, hb⟩ := hb
        obtain ⟨ds, r, w₂, hbody⟩ := ihl t.nodes w₁
        rcases hend : (endInclusion ctx tag (nativeWithin ctx (levels + 1) tag)).run w with ⟨f | e, w₃⟩
        · exact ⟨_, _, _, .inclusionFails hb hbody hend⟩
        · obtain ⟨es, r', w', h⟩ := ih w₃
          exact ⟨_, _, _, .inclusion hb hbody hend h⟩
      · exact hstopped nodes (.inr fun t w₁ h => hb ⟨t, w₁, h⟩)
  obtain ⟨ds, r, w', h⟩ := hall
  refine ⟨ds, ?_⟩
  rw [h.run]
  exact h

end Environment

end HybridTemplate
