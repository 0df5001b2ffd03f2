import HybridTemplate.Proofs.Descent
import HybridTemplate.Proofs.RawStore
import HybridTemplate.Proofs.Switching

/-!
# What a failed inclusion leaves behind

An inclusion can fail after others in it have ended. Over a stable source, what is left of it are these alone: the depth
and the frames are as before, but for a mark that has spread, and the artifacts are what the inclusions in it have
written that were deferred.

* `Passage` — what a part of a render does to the depth and the stack; `Passage.ends` is the step for an inclusion, and
  `Chronicle.passage` the run;
* `Completes` — a deferred inclusion has written its text, the source that the text was rendered from, and the sources
  of the names in its frame;
* `Residue`, `residue_of_failed` — what is left of a failed inclusion. None that has ended in it is of the same name, so
  nothing is written under its own name.
-/

namespace HybridTemplate

open Registers (Handle)
open World

variable {ω σ : Type}

namespace Environment

variable {ctx : Context ω} {C : Catalog} {levels : Nat} {nodes : List Node} {tag : Inclusion} {t : Template}
  {w w₁ w₂ u w' : World σ} {ds es : List (Deed σ)} {r : Except (Failure RenderError) String}
  {e : Except (Failure RenderError) Ending} {m n : Bool} {names names' : NameSet}

section

variable [DataModel ω σ]

/-! ## Depth and frames -/

/-- What nodes do to the depth and the stack: the depth stays, and the frames absorb a mark if `m`, and names. There is
a mark only if an output has read a value that may mark, and the names are of inclusions that have ended. -/
structure Passage (ctx : Context ω) (m : Bool) (names : NameSet) (ds : List (Deed σ)) (w w' : World σ) : Prop where
  depth : w'.includeDepth = w.includeDepth
  stack : (w'.registers.get ctx.registers).stack = (w.registers.get ctx.registers).stack.absorb m names
  marked : m = true → ∃ v u, Deed.output v u ∈ ds ∧ ctx.MayMark v u
  ended : ∀ name ∈ names, Ended ds name

/-- To read sources does nothing to the depth and the stack. -/
theorem passage_withSource (w : World σ) (source : Source) : Passage ctx false ∅ [] w { w with source } :=
  ⟨rfl, (FrameStack.absorb_false_empty _).symm, (fun h => nomatch h),
    fun name h => absurd h (NameSet.notMem_empty name)⟩

theorem Passage.append (h₁ : Passage ctx m names ds w w₁) (h₂ : Passage ctx n names' es w₁ w') :
    Passage ctx (m || n) (names.union names') (ds ++ es) w w' := by
  refine ⟨h₂.depth.trans h₁.depth, ?_, fun ht => ?_, fun name hname => ?_⟩
  · rw [h₂.stack, h₁.stack, FrameStack.absorb_absorb]
  · obtain ht | ht := Bool.or_eq_true_iff.mp ht
    · obtain ⟨v, u, hmem, hmarks⟩ := h₁.marked ht
      exact ⟨v, u, List.mem_append_left es hmem, hmarks⟩
    · obtain ⟨v, u, hmem, hmarks⟩ := h₂.marked ht
      exact ⟨v, u, List.mem_append_right ds hmem, hmarks⟩
  · obtain hname | hname := NameSet.mem_union.mp hname
    · exact (h₁.ended name hname).mono (List.subset_append_left ds es)
    · exact (h₂.ended name hname).mono (List.subset_append_right ds es)

theorem passage_evaluate (hc : ctx.Confined Registers.Switching) {v : Variable}
    {r : Except (Failure RenderError) String} (hv : (lift (ctx.evaluate v)).run w = (r, w')) :
    ∃ m, Passage ctx m ∅ [.output v w.toShared] w w' := by
  obtain ⟨m, hstack, hmarks⟩ := hc.stack_evaluate v w.toShared
  have hw' : w' = { w with toShared := ((ctx.evaluate v).run w.toShared).2 } := congrArg Prod.snd hv.symm
  refine ⟨m, ?_, ?_, fun ht => ⟨v, w.toShared, List.mem_singleton_self _, hmarks ht⟩, ?_⟩
  · rw [hw']
  · rw [hw']
    exact hstack
  · exact fun name h => absurd h (NameSet.notMem_empty name)

/-- What happens inside an inclusion that begins, from the start of its body to the end. -/
theorem Begins.passage (hb : Begins ctx tag w t w₁) (h : Passage ctx m names ds w₁ w₂) :
    Passage ctx m names ds (bodyStart ctx tag w) w₂.shallower := by
  refine ⟨?_, ?_, h.marked, h.ended⟩
  · show w₂.includeDepth - 1 = _
    rw [h.depth, hb.read.1]
    rfl
  · show (w₂.registers.get ctx.registers).stack = _
    rw [h.stack, hb.read.1]
    rfl

/-- The frame of an inclusion in caching mode has the marks and the names of its body, and the mark spreads to the
frames around it or not. -/
theorem Passage.pop? (hcaching : (w.registers.get ctx.registers).caching = true)
    (h : Passage ctx m names ds (bodyStart ctx tag w) u) :
    (u.registers.get ctx.registers).stack.pop? = some (⟨tag.key, !m, names⟩,
      (w.registers.get ctx.registers).stack.absorb (m && (w.registers.get ctx.registers).policy.spreads) ∅) := by
  have hstart : (bodyStart ctx tag w).registers.get ctx.registers =
      (w.registers.get ctx.registers).mapStack (·.push tag.key) := by
    unfold bodyStart
    rw [if_pos hcaching]
    exact Shared.get_modifyRegisters_self _ _ _
  rw [h.stack, hstart]
  exact FrameStack.pop?_absorb_push _ _ _ _

/-- What is left of an inclusion in caching mode that is not frozen: at most a mark that spreads. -/
theorem Passage.spread (h : Passage ctx m names ds (bodyStart ctx tag w) u) (d : Deed σ) (b : Bool)
    (hdepth : w'.includeDepth = u.includeDepth)
    (hstack : (w'.registers.get ctx.registers).stack = (w.registers.get ctx.registers).stack.absorb (m && b) ∅) :
    Passage ctx (m && b) ∅ (ds ++ [d]) w w' := by
  refine ⟨?_, hstack, fun ht => ?_, fun name hname => absurd hname (NameSet.notMem_empty name)⟩
  · rw [hdepth, h.depth, bodyStart_includeDepth]
  · obtain ⟨v, u, hmem, hmarks⟩ := h.marked (Bool.and_eq_true_iff.mp ht).1
    exact ⟨v, u, List.mem_append_left [d] hmem, hmarks⟩

/-- After its end, an inclusion is as deep as before, and the frames around it have absorbed what its body did. If it
fails in caching mode, this is at most a mark that spreads. -/
theorem Passage.ends (h : Passage ctx m names ds (bodyStart ctx tag w) u) (hends : Ends ctx tag w r u e w') :
    ∃ n names', Passage ctx n names' (ds ++ [.visit ⟨tag.key, w.source.reads, e.toOption⟩]) w w' ∧
      ((w.registers.get ctx.registers).caching = true → ∀ f, e = .error f →
        n = (m && (w.registers.get ctx.registers).policy.spreads) ∧ names' = ∅) := by
  cases hends with
  | untracked hcaching =>
    refine ⟨m, names, ?_, fun ht => absurd (hcaching.symm.trans ht) Bool.false_ne_true⟩
    have hstart : bodyStart ctx tag w = w := if_neg (Bool.eq_false_iff.mp hcaching)
    rw [hstart] at h
    refine ⟨h.depth, h.stack, fun ht => ?_, fun name hname => ?_⟩
    · obtain ⟨v, u, hmem, hmarks⟩ := h.marked ht
      exact ⟨v, u, List.mem_append_left _ hmem, hmarks⟩
    · exact (h.ended name hname).mono (List.subset_append_left ds _)
  | underflow hcaching hp => cases hp.symm.trans (h.pop? hcaching)
  | failed hcaching _ hp =>
    obtain ⟨rfl, rfl⟩ := Prod.mk.inj (Option.some.inj (hp.symm.trans (h.pop? hcaching)))
    refine ⟨_, ∅, h.spread _ _ rfl ?_, fun _ _ _ => ⟨rfl, rfl⟩⟩
    exact u.stack_popped _ _
  | frozen hcaching _ hp hframe =>
    obtain ⟨rfl, rfl⟩ := Prod.mk.inj (Option.some.inj (hp.symm.trans (h.pop? hcaching)))
    obtain rfl : m = false := (Bool.not_eq_true' m).mp hframe
    refine ⟨false, names.insert tag.key, ⟨?_, ?_, (fun ht => nomatch ht), fun name hname => ?_⟩,
      fun _ _ hr => nomatch hr⟩
    · exact h.depth.trans (bodyStart_includeDepth ctx tag w)
    · rw [Shared.get_modifyRegisters_self]
      show ((u.popped ctx.registers _).registers.get ctx.registers).stack.recordInlined _ = _
      rw [u.stack_popped, FrameStack.recordInlined_eq_absorb, FrameStack.absorb_absorb, NameSet.empty_union]
      rfl
    · obtain rfl | hname := NameSet.mem_insert.mp hname
      · exact ⟨_, _, List.mem_append_right ds (List.mem_singleton_self _), rfl, rfl⟩
      · exact (h.ended name hname).mono (List.subset_append_left ds _)
  | withheld hcaching _ hp _ hs =>
    obtain ⟨rfl, rfl⟩ := Prod.mk.inj (Option.some.inj (hp.symm.trans (h.pop? hcaching)))
    refine ⟨_, ∅, h.spread _ _ rfl ?_, fun _ _ _ => ⟨rfl, rfl⟩⟩
    exact u.stack_popped _ _
  | deferred hcaching _ hp _ _ _ _ _ =>
    obtain ⟨rfl, rfl⟩ := Prod.mk.inj (Option.some.inj (hp.symm.trans (h.pop? hcaching)))
    refine ⟨_, ∅, h.spread _ (w.registers.get ctx.registers).policy.spreads rfl ?_, fun _ _ hr => nomatch hr⟩
    rw [Shared.get_modifyRegisters_self]
    exact u.stack_popped _ _

/-- Whatever happens while nodes are rendered, they do no more than this to the depth and the stack. -/
theorem Chronicle.passage (hc : ctx.Confined Registers.Switching) (h : Chronicle ctx levels nodes w ds r w') :
    ∃ m names, Passage ctx m names ds w w' := by
  induction h with
  | @nil levels w => exact ⟨false, ∅, passage_withSource w w.source⟩
  | text _ ih => exact ih
  | output hv _ ih =>
    obtain ⟨m, hm⟩ := passage_evaluate hc hv
    obtain ⟨n, names, hn⟩ := ih
    exact ⟨_, _, hm.append hn⟩
  | outputFails hv =>
    obtain ⟨m, hm⟩ := passage_evaluate hc hv
    exact ⟨m, ∅, hm⟩
  | inclusion hb hbody hend _ ihbody ih =>
    obtain ⟨m, names, hm⟩ := ihbody
    obtain ⟨n, names', hn⟩ := ih
    have hends := hbody.ends hb hend
    obtain ⟨k, names'', hk, -⟩ := (hb.passage hm).ends hends
    have happend := hk.append hn
    rw [List.append_assoc] at happend
    exact ⟨_, _, happend⟩
  | inclusionFails hb hbody hend ihbody =>
    obtain ⟨m, names, hm⟩ := ihbody
    have hends := hbody.ends hb hend
    obtain ⟨k, names', hk, -⟩ := (hb.passage hm).ends hends
    exact ⟨k, names', hk⟩
  | stopped hb hend =>
    obtain ⟨f, source, hends, -⟩ := ends_of_not_begins hb hend
    obtain ⟨k, names, hk, -⟩ := (passage_withSource _ source).ends hends
    exact ⟨_, _, hk⟩

/-! ## What has been deferred -/

/-- An inclusion of `key` was rendered to the text from its source, and the frame that was popped after it was
uncacheable; `inlined` are the sources of the names in this frame. -/
structure Completes (ctx : Context ω) (C : Catalog) (key text source : String) (inlined : List (String × String)) :
    Prop where
  held : C key = .ok source
  rendered : ∃ t levels, ∃ w₁ u : World σ, ∃ frame stack, Template.parse source = .ok t ∧
    (renderWith ctx (cached.expandWithin ctx levels) t.nodes).run w₁ = (.ok text, u) ∧
    (u.registers.get ctx.registers).stack.pop? = some (frame, stack) ∧ frame.name = key ∧ frame.cacheable = false ∧
    inlined.map Prod.fst = frame.inlined.toList
  inlined : ∀ e ∈ inlined, C e.1 = .ok e.2

/-- All inclusions that were deferred are complete, and what was inlined beneath them had ended. -/
def Complete (ctx : Context ω) (C : Catalog) (ds : List (Deed σ)) : Prop :=
  ∀ key earlier text moment source inlined,
    Deed.visit ⟨key, earlier, some (.deferred text moment source inlined)⟩ ∈ ds →
      Completes ctx C key text source inlined ∧ ∀ e ∈ inlined, Ended ds e.1

theorem Complete.append (h₁ : Complete ctx C ds) (h₂ : Complete ctx C es) : Complete ctx C (ds ++ es) := by
  intro key earlier text moment source inlined hmem
  rcases List.mem_append.mp hmem with hmem | hmem
  · obtain ⟨hcompletes, hended⟩ := h₁ key earlier text moment source inlined hmem
    exact ⟨hcompletes, fun e he => (hended e he).mono (List.subset_append_left ds es)⟩
  · obtain ⟨hcompletes, hended⟩ := h₂ key earlier text moment source inlined hmem
    exact ⟨hcompletes, fun e he => (hended e he).mono (List.subset_append_right ds es)⟩

/-- An inclusion that is deferred is complete. -/
theorem Complete.ends (h : Complete ctx C ds) (hs : w.source.Serves C) (hb : Begins ctx tag w t w₁)
    (hbody : Chronicle ctx levels t.nodes w₁ ds r w₂) (hp : Passage ctx m names ds (bodyStart ctx tag w) w₂.shallower)
    (hends : Ends ctx tag w r w₂.shallower e w') :
    Complete ctx C (ds ++ [.visit ⟨tag.key, w.source.reads, e.toOption⟩]) := by
  have hsub : ds ⊆ ds ++ [.visit ⟨tag.key, w.source.reads, e.toOption⟩] := List.subset_append_left ds _
  have hs₂ : w₂.source.Serves C := hs.congr (hb.onward.trans hbody.onward).answer
  intro key earlier text moment source inlined hmem
  rcases List.mem_append.mp hmem with hmem | hmem
  · obtain ⟨hcompletes, hended⟩ := h key earlier text moment source inlined hmem
    exact ⟨hcompletes, fun e he => (hended e he).mono hsub⟩
  · have hvisit := List.mem_singleton.mp hmem
    cases hends with
    | untracked => cases r with
      | error f => cases hvisit
      | ok text => cases hvisit
    | underflow => cases hvisit
    | failed => cases hvisit
    | frozen => cases hvisit
    | withheld => cases hvisit
    | @deferred text frame stack source inlined s event hcaching hr hpop hframe hsource hs' hnames hinlined =>
      cases hvisit
      subst hr
      -- The source was read before the body and again after it; as it is stable, this is the same one.
      have hC : C tag.key = .ok source := by rw [← hs₂ w₂.source.reads]; exact hsource
      obtain ⟨source', hC', hparse⟩ := hb.holds hs
      obtain rfl := Except.ok.inj (hC'.symm.trans hC)
      have hpop' := hpop.symm.trans (hp.pop? hcaching)
      obtain ⟨rfl, rfl⟩ := Prod.mk.inj (Option.some.inj hpop')
      refine ⟨⟨hC, ⟨t, levels, w₁, w₂, _, _, hparse, hbody.run, hpop, rfl, hframe, hnames⟩, fun e he => ?_⟩,
        fun e he => ?_⟩
      · exact (hs₂.congr ((w₂.source.onward_read tag.key).trans hs').answer).told (hinlined e he)
      · have hname : e.1 ∈ names.toList := hnames ▸ List.mem_map_of_mem he
        exact (hp.ended e.1 (NameSet.mem_toList.mp hname)).mono hsub

/-- All inclusions that are deferred while nodes are rendered are complete. -/
theorem Chronicle.complete (hc : ctx.Confined Registers.Switching) (hs : w.source.Serves C)
    (h : Chronicle ctx levels nodes w ds r w') : Complete ctx C ds := by
  induction h with
  | nil => exact fun _ _ _ _ _ _ hmem => nomatch hmem
  | text _ ih => exact ih hs
  | @output levels v value nodes w w₁ w' ds r hv _ ih =>
    have houtput : Complete ctx C [.output v w.toShared] :=
      fun _ _ _ _ _ _ hmem => nomatch List.mem_singleton.mp hmem
    exact houtput.append (ih (hs.congr (onward_evaluate hv).answer))
  | outputFails => exact fun _ _ _ _ _ _ hmem => nomatch List.mem_singleton.mp hmem
  | inclusion hb hbody hend h ihbody ih =>
    obtain ⟨m, names, hm⟩ := hbody.passage hc
    have hends := hbody.ends hb hend
    have hinside := (ihbody (hs.congr hb.onward.answer)).ends hs hb hbody (hb.passage hm) hends
    have hlater := ih (hs.congr (hbody.onward_end hb hend).answer)
    have happend := hinside.append hlater
    rwa [List.append_assoc] at happend
  | inclusionFails hb hbody hend ihbody =>
    obtain ⟨m, names, hm⟩ := hbody.passage hc
    have hends := hbody.ends hb hend
    exact (ihbody (hs.congr hb.onward.answer)).ends hs hb hbody (hb.passage hm) hends
  | stopped => exact fun _ _ _ _ _ _ hmem => nomatch List.mem_singleton.mp hmem

/-- Under a name of which nothing is deferred, nor inlined beneath what is deferred, the artifacts stay as they are. -/
theorem stored_apart {name : String} (h : ∀ key earlier text moment source inlined,
      Deed.visit ⟨key, earlier, some (.deferred text moment source inlined)⟩ ∈ ds →
        key ≠ name ∧ name ∉ inlined.map Prod.fst) (a : Option Artifacts) :
    ((stored ds a).getD {}).templates.get? name = (a.getD {}).templates.get? name ∧
      ((stored ds a).getD {}).renderedResults.get? name = (a.getD {}).renderedResults.get? name := by
  induction ds generalizing a with
  | nil => exact ⟨rfl, rfl⟩
  | cons d ds ih =>
    have hrest := ih fun key earlier text moment source inlined hmem =>
      h key earlier text moment source inlined (List.mem_cons_of_mem d hmem)
    rw [stored_cons, (hrest _).1, (hrest _).2]
    match d with
    | .output _ _ => exact ⟨rfl, rfl⟩
    | .visit ⟨_, _, none⟩ => exact ⟨rfl, rfl⟩
    | .visit ⟨_, _, some (.untracked _)⟩ => exact ⟨rfl, rfl⟩
    | .visit ⟨_, _, some (.frozen _)⟩ => exact ⟨rfl, rfl⟩
    | .visit ⟨key, earlier, some (.deferred text moment source inlined)⟩ =>
      obtain ⟨hkey, hnot⟩ := h key earlier text moment source inlined List.mem_cons_self
      constructor
      · obtain ⟨rfl, -⟩ | ⟨kept, hmem, -⟩ | ⟨-, -, hget⟩ :=
          (a.getD {}).templates_defer_cases key source text inlined name
        · exact absurd rfl hkey
        · exact absurd (List.mem_map_of_mem hmem) hnot
        · exact hget
      · exact (Expansion.results_defer _ _ _ _ _ _).trans (if_neg hkey.symm)

/-! ## Failed inclusions -/

/-- What is left of an inclusion that failed between the two states, if the deeds are what happened in it. -/
structure Residue (ctx : Context ω) (C : Catalog) (tag : Inclusion) (ds : List (Deed σ)) (w w' : World σ) : Prop where
  depth : w'.includeDepth = w.includeDepth
  /-- No frame is added, taken away or named otherwise, and none has inlined more. The flags go down under the
  propagating policy alone, if an output has read a value that may mark. -/
  stack : (w'.registers.get ctx.registers).stack = (w.registers.get ctx.registers).stack ∨
    (w.registers.get ctx.registers).policy = .propagating ∧
      (w'.registers.get ctx.registers).stack = (w.registers.get ctx.registers).stack.markUncacheable ∧
      ∃ v u, Deed.output v u ∈ ds ∧ ctx.MayMark v u
  /-- The artifacts have what the deferred inclusions wrote, in order, and nothing else that is new. -/
  store : (w'.registers.get ctx.registers).store = stored ds (w.registers.get ctx.registers).store
  complete : Complete ctx C ds
  /-- None of the inclusions that ended is of the name of the failed one. -/
  apart : ¬Ended ds tag.key
  templates : ((w'.registers.get ctx.registers).store.getD {}).templates.get? tag.key =
    ((w.registers.get ctx.registers).store.getD {}).templates.get? tag.key
  results : ((w'.registers.get ctx.registers).store.getD {}).renderedResults.get? tag.key =
    ((w.registers.get ctx.registers).store.getD {}).renderedResults.get? tag.key

/-- What is left of a failed inclusion, from what its body did. -/
theorem residue_of_ends (hc : ctx.Confined Registers.Switching)
    (hcaching : (w.registers.get ctx.registers).caching = true) {f : Failure RenderError}
    (h : Chronicle ctx levels [.inclusion tag] w (ds ++ [.visit ⟨tag.key, w.source.reads, none⟩]) (.error f) w')
    (hcomplete : Complete ctx C ds) (hapart : ¬Ended ds tag.key)
    (hp : Passage ctx m names ds (bodyStart ctx tag w) u) (hends : Ends ctx tag w r u (.error f) w') :
    Residue ctx C tag ds w w' := by
  have hstore : (w'.registers.get ctx.registers).store = stored ds (w.registers.get ctx.registers).store := by
    rw [h.store (hc.mono Registers.Switching.store), stored_append]
    rfl
  obtain ⟨n, names', hpassage, hfailed⟩ := hp.ends hends
  obtain ⟨rfl, rfl⟩ := hfailed hcaching f rfl
  -- Whatever is written in it belongs to inclusions that have ended, and none of these is of its own name.
  have hfree : ∀ key earlier text moment source inlined,
      Deed.visit ⟨key, earlier, some (.deferred text moment source inlined)⟩ ∈ ds →
        key ≠ tag.key ∧ tag.key ∉ inlined.map Prod.fst := by
    intro key earlier text moment source inlined hmem
    constructor
    · intro hkey
      exact hapart ⟨_, _, hmem, hkey, rfl⟩
    · intro hname
      obtain ⟨e, he, hkey⟩ := List.mem_map.mp hname
      obtain ⟨-, hended⟩ := hcomplete key earlier text moment source inlined hmem
      exact hapart (hkey ▸ hended e he)
  have hown := stored_apart hfree (w.registers.get ctx.registers).store
  rw [← hstore] at hown
  refine ⟨hpassage.depth, ?_, hstore, hcomplete, hapart, hown.1, hown.2⟩
  have hstack := hpassage.stack
  cases hspread : m && (w.registers.get ctx.registers).policy.spreads with
  | false =>
    rw [hspread, FrameStack.absorb_false_empty] at hstack
    exact .inl hstack
  | true =>
    obtain ⟨v, u', hmem, hmarks⟩ := hpassage.marked hspread
    rw [hspread, ← FrameStack.markUncacheable_eq_absorb] at hstack
    refine .inr ⟨?_, hstack, v, u', ?_, hmarks⟩
    · cases hpolicy : (w.registers.get ctx.registers).policy with
      | propagating => rfl
      | localOnly =>
        rw [hpolicy] at hspread
        cases (Bool.and_eq_true_iff.mp hspread).2
    · rcases List.mem_append.mp hmem with hmem | hmem
      · exact hmem
      · cases List.mem_singleton.mp hmem

/-- An inclusion in caching mode that fails leaves no more behind than what was deferred in it, and a mark if it
spreads. The deeds end with its own failure. -/
theorem residue_of_failed (hc : ctx.Confined Registers.Switching) (hs : w.source.Serves C)
    (hcaching : (w.registers.get ctx.registers).caching = true) {f : Failure RenderError}
    (hfail : (cached.expand ctx tag).run w = (.error f, w')) :
    ∃ ds, Chronicle ctx (ctx.includeLimit - w.includeDepth) [.inclusion tag] w
        (ds ++ [.visit ⟨tag.key, w.source.reads, none⟩]) (.error f) w' ∧ Residue ctx C tag ds w w' := by
  have hend : (endInclusion ctx tag (nativeWithin ctx (ctx.includeLimit - w.includeDepth) tag)).run w =
      (.error f, w') := by
    have hexpand : (cached.expandWithin ctx (ctx.includeLimit - w.includeDepth) tag).run w = (.error f, w') := hfail
    rw [expandWithin_eq_map_answer, Run.map_run] at hexpand
    rcases hr : (endInclusion ctx tag (nativeWithin ctx (ctx.includeLimit - w.includeDepth) tag)).run w with ⟨f' | e, u⟩
    · rw [hr] at hexpand
      cases hexpand
      rfl
    · rw [hr] at hexpand
      cases hexpand
  generalize ctx.includeLimit - w.includeDepth = levels at hend
  -- Either it does not get as far as its body, or the failure is in the body or after it.
  by_cases hb : levels = 0 ∨ ∀ t w₁, ¬Begins ctx tag w t w₁
  · obtain ⟨f', source, hends, -⟩ := ends_of_not_begins hb hend
    have hchronicle : Chronicle ctx levels [.inclusion tag] w ([] ++ [.visit ⟨tag.key, w.source.reads, none⟩])
      (.error f) w' := .stopped hb hend
    refine ⟨[], hchronicle, residue_of_ends hc hcaching hchronicle ?_ (not_ended_nil tag.key)
      (passage_withSource _ source) hends⟩
    exact fun _ _ _ _ _ _ hmem => nomatch hmem
  · obtain ⟨hlevels, hbegins⟩ := not_or.mp hb
    obtain ⟨levels, rfl⟩ := Nat.exists_eq_succ_of_ne_zero hlevels
    obtain ⟨t, hbegins⟩ := not_forall.mp hbegins
    obtain ⟨w₁, hbegins⟩ := not_forall.mp hbegins
    have hbegins : Begins ctx tag w t w₁ := Classical.not_not.mp hbegins
    obtain ⟨ds, hbody⟩ := exists_chronicle ctx levels t.nodes w₁
    obtain ⟨m, names, hm⟩ := hbody.passage hc
    have hends := hbody.ends hbegins hend
    have hchronicle : Chronicle ctx (levels + 1) [.inclusion tag] w
      (ds ++ [.visit ⟨tag.key, w.source.reads, none⟩]) (.error f) w' := .inclusionFails hbegins hbody hend
    exact ⟨ds, hchronicle, residue_of_ends hc hcaching hchronicle
      (hbody.complete hc (hs.congr hbegins.onward.answer)) (hbegins.not_ended hs hbody) (hbegins.passage hm) hends⟩

end

end Environment

/-! ## A sample failure -/

namespace Sample

/-- A template that includes the row of the sample site and then one that is not there. -/
def lacking (n : String) : Option String :=
  if n = "bad" then some "\x7b% include 'row' %\x7d\x7b% include 'missing' %\x7d" else texts n

/-- A state inside a page, in caching mode. -/
def insidePage : World Heap :=
  { registers := ⟨[{ caching := true, stack := { policy := .propagating, frames := [{ name := "page" }] } }]⟩
    log := [], objects := {}, source := .ofLookup lacking, includeDepth := 1 }

def badTag : Inclusion :=
  ⟨" ", '\'', "bad"⟩

/-- The registers after the inclusion: the mark of the row has spread to the page, and what the row has written is
there. -/
def afterBad : Registers :=
  { caching := true
    stack := { policy := .propagating, frames := [{ name := "page", cacheable := false }] }
    store := some (precompiled "Ann").artifacts }

theorem expand_bad :
    ((Environment.cached.expand (context "Ann") badTag).run insidePage).1 =
        .error (.error (.source (.notFound "missing"))) ∧
      ((Environment.cached.expand (context "Ann") badTag).run insidePage).2.registers.get ⟨0⟩ = afterBad := by
  constructor
  all_goals cbv

/-- What is left of the inclusion is of the row that ended in it. -/
theorem residue_bad : ∃ ds w', w'.registers.get ⟨0⟩ = afterBad ∧ afterBad.store = stored ds none ∧
    Environment.Residue (context "Ann") (fun n => match lacking n with
      | some text => .ok text
      | none => .error (.notFound n)) badTag ds insidePage w' := by
  obtain ⟨hfail, hregisters⟩ := expand_bad
  rcases hr : (Environment.cached.expand (context "Ann") badTag).run insidePage with ⟨r, w'⟩
  rw [hr] at hfail hregisters
  obtain rfl : r = .error (.error (.source (.notFound "missing"))) := hfail
  have hcaching : (insidePage.registers.get (context "Ann").registers).caching = true := by cbv
  obtain ⟨ds, -, hresidue⟩ := Environment.residue_of_failed
    ((pure_context "Ann").1.confined Registers.bound_switching) (Source.serves_ofLookup lacking) hcaching hr
  have hstore := hresidue.store
  have hnone : (insidePage.registers.get (context "Ann").registers).store = none := by cbv
  have hafter : w'.registers.get (context "Ann").registers = afterBad := hregisters
  rw [hnone, hafter] at hstore
  exact ⟨ds, w', hregisters, hstore, hresidue⟩

/-- An object that does as it likes to the registers when it is accessed. -/
structure Meddler where
  registers : Handle
  act : Registers → Registers

instance : DataModel Meddler Unit where
  setRegisters o h := pure { o with registers := h }
  toRenderable o := pure (.bare o)
  invoke o _ := do
    Run.modify fun w => w.modifyRegisters o.registers o.act
    return .json (.string "Eve")
  toOutput _ := pure ""

/-- A context with such an object, which is in no layer. -/
def meddling (act : Registers → Registers) : Context Meddler :=
  { assigns := NameMap.insert ∅ "eve" (.object (.bare ⟨⟨0⟩, act⟩)), registers := ⟨0⟩, includeLimit := 8 }

/-- No output leads through a layer that knows the registers. -/
theorem not_meets_meddling (act : Registers → Registers) (v : Variable) (u : Shared Unit) :
    ¬(meddling act).Meets v u := by
  have hjson : ∀ {keys : List String} {x : Value Meddler} {u : Shared Unit}, x.Meets (Value.Knows ⟨0⟩) keys u →
      ∀ j, x ≠ .json j := by
    intro keys x u hm
    induction hm with
    | here hk =>
      obtain ⟨o, rfl, -⟩ := hk
      exact fun j hj => nomatch hj
    | next hr _ ih =>
      rintro j rfl
      obtain ⟨hj, -⟩ := Run.pure_eq_ok hr
      exact ih _ hj.symm
  intro hm
  have hlookup : (meddling act).lookup v.name = .object (.bare ⟨⟨0⟩, act⟩) ∨ (meddling act).lookup v.name = .null := by
    rw [meddling, Context.lookup, NameMap.get?_insert]
    split
    · exact .inl rfl
    · exact .inr rfl
  unfold Context.Meets at hm
  generalize v.members = keys at hm
  obtain hobject | hnull := hlookup
  · rw [hobject] at hm
    cases hm with
    | here hk =>
      obtain ⟨o, ho, hknows⟩ := hk
      cases ho
      exact hknows
    | next hr hrest =>
      obtain ⟨_, u₁, -, hanswer⟩ := Run.bind_eq_ok hr
      obtain ⟨hj, -⟩ := Run.pure_eq_ok hanswer
      exact hjson hrest _ hj.symm
  · exact hjson hm _ hnull

/-- A template that includes one with an output of the object, and then one that is not there. -/
def meddled : String → Option String
  | "bad" => some "\x7b% include 'eve' %\x7d\x7b% include 'missing' %\x7d"
  | "eve" => some "\x7b\x7b eve.name \x7d\x7d"
  | _ => none

/-- The registers after an inclusion in caching mode that is itself in a frame, and how it ended. -/
def meddle (act : Registers → Registers) : Except (Failure RenderError) String × Registers :=
  let w : World Unit :=
    { registers := ⟨[{ caching := true, stack := { policy := .propagating, frames := [{ name := "page" }] } }]⟩
      log := [], objects := (), source := .ofLookup meddled, includeDepth := 1 }
  let r := (Environment.cached.expand (meddling act) badTag).run w
  (r.1, r.2.registers.get ⟨0⟩)

/-- A failed inclusion leaves more behind if objects do more. An object in no layer lowers the flag of the frame around
it if it marks. One that takes a frame away takes it from the page in the end, one that writes an artifact leaves it,
and one that records the name of the failed inclusion lets another inclusion write its source. -/
theorem failed_inclusion_meddled :
    (∀ v u, ¬(meddling Registers.markUncacheable).Meets v u) ∧
    meddle Registers.markUncacheable = (.error (.error (.source (.notFound "missing"))), {
      caching := true
      stack := { policy := .propagating, frames := [{ name := "page", cacheable := false }] }
      store := some {
        templates := .ofList [("eve", "\x7b\x7b eve.name \x7d\x7d")]
        renderedResults := .ofList [("eve", "Eve")] } }) ∧
    meddle (·.mapStack fun s => s.pop?.elim s Prod.snd) = (.error (.error (.source (.notFound "missing"))), {
      caching := true
      stack := { policy := .propagating } }) ∧
    meddle (·.mapStore (·.insertResult "foot" "!")) = (.error (.error (.source (.notFound "missing"))), {
      caching := true
      stack := { policy := .propagating, frames := [{ name := "page" }] }
      store := some { renderedResults := .ofList [("foot", "!")] } }) ∧
    meddle (·.mapStack (·.recordInlined { name := "bad" }) |>.markUncacheable) =
      (.error (.error (.source (.notFound "missing"))), {
        caching := true
        stack := { policy := .propagating, frames := [{ name := "page", cacheable := false }] }
        store := some {
          templates := .ofList [("bad", "\x7b% include 'eve' %\x7d\x7b% include 'missing' %\x7d"),
            ("eve", "\x7b\x7b eve.name \x7d\x7d")]
          renderedResults := .ofList [("eve", "Eve")] } }) := by
  refine ⟨not_meets_meddling _, ?_, ?_, ?_, ?_⟩
  all_goals cbv

end Sample

end HybridTemplate
