import HybridTemplate.Proofs.Chronicle
import HybridTemplate.Proofs.Meaning
import HybridTemplate.Proofs.RawStore
import HybridTemplate.Source.Memory

/-!
# Where the artifacts come from

A source need not answer two reads of a name alike. An inclusion reads its source before it is rendered, and once more
if it is deferred; whoever inlines it beneath a deferred inclusion reads it a third time. So the source that is kept
under a name can be another one than was rendered to the text under the same name (`kept_source_differs`). What holds
for every source:

* `Produced` — an inclusion whose source was read, parsed and rendered to a text, and which was deferred last of its
  name;
* `Sourced` — each text in the artifacts was produced by an inclusion, and the source kept with it was answered to a
  read of its name after this; `Chronicle.sourced` — every step of a render keeps it, as long as objects do not write
  artifacts;
* `Traced`, `results_traced` — so it is for renders and precompilations, and the source that is kept is the one that was
  rendered if all reads of the name since were answered alike.
-/

namespace HybridTemplate

open Registers (Handle)
open World

variable {ω σ : Type}

namespace Deed

/-- An inclusion of the name ends, and is deferred. -/
def Defers (name : String) : Deed σ → Prop
  | visit ⟨key, _, some (.deferred _ _ _ _)⟩ => key = name
  | _ => False

end Deed

namespace Environment

variable [DataModel ω σ] {ctx : Context ω} {ds : List (Deed σ)} {d : Deed σ} {s s' : Source} {a : Artifacts}
  {name text parsed kept : String} {earlier moment : List String}

/-- An inclusion of `name` was begun after the reads `earlier`: its source was answered with `parsed`, which was parsed
and rendered to `text`. After the reads `moment` it was deferred, and no other inclusion of `name` since. -/
structure Produced (ctx : Context ω) (ds : List (Deed σ)) (s : Source) (name text : String) (earlier : List String)
    (parsed : String) (moment : List String) : Prop where
  deed : ∃ past source inlined future,
    ds = past ++ .visit ⟨name, earlier, some (.deferred text moment source inlined)⟩ :: future ∧
      ∀ d ∈ future, ¬d.Defers name
  rendered : ∃ u : World σ, Renders ctx s name earlier parsed text u ∧ u.source.reads = moment
  reads : name :: earlier <:+ moment

/-- Each text in the artifacts was produced by an inclusion, and the source kept with it was answered to a read of its
name after this. -/
def Sourced (ctx : Context ω) (ds : List (Deed σ)) (s : Source) (a : Artifacts) : Prop :=
  ∀ name text, a.renderedResults.get? name = some text → ∃ earlier parsed moment kept,
    Produced ctx ds s name text earlier parsed moment ∧ a.templates.get? name = some kept ∧ s.Told moment name kept

/-! ## One step -/

/-- What has produced a text stays so until the name is deferred again. -/
theorem Produced.snoc (h : Produced ctx ds s name text earlier parsed moment) (hd : ¬d.Defers name) :
    Produced ctx (ds ++ [d]) s name text earlier parsed moment := by
  obtain ⟨⟨past, source, inlined, future, rfl, hfuture⟩, hrendered, hreads⟩ := h
  refine ⟨⟨past, source, inlined, future ++ [d], ?_, fun d' hd' => ?_⟩, hrendered, hreads⟩
  · rw [List.append_assoc, List.cons_append]
  · rcases List.mem_append.mp hd' with hd' | hd'
    · exact hfuture d' hd'
    · rw [List.mem_singleton.mp hd']
      exact hd

theorem Produced.onward (h : Produced ctx ds s name text earlier parsed moment) (hs : s.Onward s') :
    Produced ctx ds s' name text earlier parsed moment := by
  obtain ⟨hdeed, ⟨u, hrenders, hu⟩, hreads⟩ := h
  exact ⟨hdeed, ⟨u, hrenders.onward hs, hu⟩, hreads⟩

omit [DataModel ω σ] in
theorem told_after_deferred (text' : String) {key source : String} {inlined : List (String × String)}
    (hsource : s.answer s.reads key = .ok source) (hs : (s.read key).2.Onward s')
    (hinlined : ∀ e ∈ inlined, s'.Told (key :: s.reads) e.1 e.2) (hkept : a.templates.get? name = some kept)
    (htold : s.Told moment name kept) : ∃ kept',
      (a.defer key source text' inlined).templates.get? name = some kept' ∧ s'.Told moment name kept' := by
  have hmoment : moment <:+ s.reads := by
    obtain ⟨later, hfrom, hto, -⟩ := htold
    exact (hfrom.trans (List.suffix_cons name later)).trans hto
  -- The source under the name is the one of the deferred inclusion, one of what it inlines, or as before.
  obtain ⟨rfl, hget⟩ | ⟨kept', hmem, hget⟩ | ⟨-, -, hget⟩ :=
    a.templates_defer_cases key source text' inlined name
  · exact ⟨source, hget, (Source.told_read hsource).mono hmoment hs⟩
  · exact ⟨kept', hget, (hinlined _ hmem).mono (hmoment.trans (List.suffix_cons key s.reads)) (.refl s')⟩
  · exact ⟨kept, hget.trans hkept, htold.mono (List.suffix_refl _) ((s.onward_read key).trans hs)⟩

theorem Sourced.onward (h : Sourced ctx ds s a) (hs : s.Onward s') : Sourced ctx ds s' a := by
  intro name text htext
  obtain ⟨earlier, parsed, moment, kept, hproduced, hkept, htold⟩ := h name text htext
  exact ⟨earlier, parsed, moment, kept, hproduced.onward hs, hkept, htold.mono (List.suffix_refl _) hs⟩

theorem Sourced.snoc (h : Sourced ctx ds s a) (hd : ∀ name, ¬d.Defers name) : Sourced ctx (ds ++ [d]) s a := by
  intro name text htext
  obtain ⟨earlier, parsed, moment, kept, hproduced, hkept, htold⟩ := h name text htext
  exact ⟨earlier, parsed, moment, kept, hproduced.snoc (hd name), hkept, htold⟩

/-- An inclusion that is deferred produces the text under its name; under the other names there may be sources that were
read once more. -/
theorem Sourced.deferred {key source : String} {inlined : List (String × String)} {u : World σ}
    (h : Sourced ctx ds s a) (hr : Renders ctx s key earlier parsed text u) (hu : u.source.reads = s.reads)
    (hreads : key :: earlier <:+ s.reads) (hsource : s.answer s.reads key = .ok source)
    (hs : (s.read key).2.Onward s') (hinlined : ∀ e ∈ inlined, s'.Told (key :: s.reads) e.1 e.2) :
    Sourced ctx (ds ++ [.visit ⟨key, earlier, some (.deferred text s.reads source inlined)⟩]) s'
      (a.defer key source text inlined) := by
  have honward : s.Onward s' := (s.onward_read key).trans hs
  intro name text' htext'
  rw [Expansion.results_defer] at htext'
  by_cases hname : name = key
  · rw [if_pos hname] at htext'
    obtain rfl := hname
    obtain rfl := Option.some.inj htext'
    refine ⟨earlier, parsed, s.reads, source, ⟨⟨ds, source, inlined, [], rfl, ?_⟩, ⟨u, hr.onward honward, hu⟩, hreads⟩,
      ?_, ?_⟩
    · exact List.forall_mem_nil _
    · rw [Artifacts.defer, Artifacts.insertResult, Artifacts.insertTemplate, NameMap.get?_insert_self]
    · exact (Source.told_read hsource).mono (List.suffix_refl _) hs
  · rw [if_neg hname] at htext'
    obtain ⟨earlier', parsed', moment, kept, hproduced, hkept, htold⟩ := h name text' htext'
    obtain ⟨kept', hkept', htold'⟩ := told_after_deferred text hsource hs hinlined hkept htold
    exact ⟨earlier', parsed', moment, kept', (hproduced.onward honward).snoc fun hd => hname hd.symm, hkept', htold'⟩

/-- However an inclusion ends, the artifacts stay sourced. -/
theorem Sourced.ends {tag : Inclusion} {w u w' : World σ} {r : Except (Failure RenderError) String}
    {e : Except (Failure RenderError) Ending}
    (h : Sourced ctx ds u.source ((u.registers.get ctx.registers).store.getD {})) (hends : Ends ctx tag w r u e w')
    (hr : ∀ text, r = .ok text → ∃ parsed, ∃ u' : World σ, Renders ctx u.source tag.key w.source.reads parsed text u' ∧
      u'.source.reads = u.source.reads ∧ tag.key :: w.source.reads <:+ u.source.reads) :
    Sourced ctx (ds ++ [.visit ⟨tag.key, w.source.reads, e.toOption⟩]) w'.source
      ((w'.registers.get ctx.registers).store.getD {}) := by
  have honward := hends.onward
  rw [hends.store w.source.reads]
  cases hends with
  | untracked => cases r with
    | error f => exact h.snoc fun _ hd => hd
    | ok text => exact h.snoc fun _ hd => hd
  | underflow => exact h.snoc fun _ hd => hd
  | failed => exact h.snoc fun _ hd => hd
  | frozen => exact h.snoc fun _ hd => hd
  | withheld => exact (h.onward honward).snoc fun _ hd => hd
  | deferred _ htext _ _ hsource hs _ hinlined =>
    obtain ⟨parsed, u', hrenders, hu', hreads⟩ := hr _ htext
    exact h.deferred hrenders hu' hreads hsource hs hinlined

/-! ## Whole renders -/

variable {levels : Nat} {nodes : List Node} {t : Template} {tag : Inclusion} {w w₁ w₂ w₃ w' : World σ}
  {r : Except (Failure RenderError) String} {before : List (Deed σ)}

/-- The artifacts in the registers are sourced. -/
def SourcedAt (ctx : Context ω) (ds : List (Deed σ)) (w : World σ) : Prop :=
  Sourced ctx ds w.source ((w.registers.get ctx.registers).store.getD {})

theorem SourcedAt.evaluate (h : SourcedAt ctx ds w) (hc : ctx.Confined Registers.SameStore) {v : Variable}
    (hv : (lift (ctx.evaluate v)).run w = (r, w')) : SourcedAt ctx (ds ++ [.output v w.toShared]) w' := by
  unfold SourcedAt
  rw [store_evaluate hc hv]
  exact (Sourced.onward h (onward_evaluate hv)).snoc fun _ hd => hd

theorem SourcedAt.begins (h : SourcedAt ctx ds w) (hb : Begins ctx tag w t w₁) : SourcedAt ctx ds w₁ := by
  unfold SourcedAt
  rw [hb.store]
  exact Sourced.onward h hb.onward

/-- An inclusion whose body kept the artifacts sourced keeps them so. -/
theorem SourcedAt.inclusion (h : SourcedAt ctx before w₂) (hb : Begins ctx tag w t w₁)
    (hbody : Chronicle ctx levels t.nodes w₁ ds r w₂) {e : Except (Failure RenderError) Ending}
    (hend : (endInclusion ctx tag (nativeWithin ctx (levels + 1) tag)).run w = (e, w₃)) :
    SourcedAt ctx (before ++ [.visit ⟨tag.key, w.source.reads, e.toOption⟩]) w₃ := by
  have hends := hbody.ends hb hend
  refine Sourced.ends (u := w₂.shallower) h hends fun text htext => ?_
  obtain rfl := htext
  obtain ⟨parsed, hrenders⟩ := Chronicle.renders hb hbody
  have hreads := hbody.onward.reads
  rw [hb.read.1] at hreads
  exact ⟨parsed, w₂, hrenders.onward (hb.onward.trans hbody.onward), rfl, hreads⟩

theorem SourcedAt.stopped (h : SourcedAt ctx before w) (hb : levels = 0 ∨ ∀ t w₁, ¬Begins ctx tag w t w₁)
    {e : Except (Failure RenderError) Ending}
    (hend : (endInclusion ctx tag (nativeWithin ctx levels tag)).run w = (e, w')) :
    SourcedAt ctx (before ++ [.visit ⟨tag.key, w.source.reads, e.toOption⟩]) w' := by
  obtain ⟨f, source, hends, hsource⟩ := ends_of_not_begins hb hend
  refine Sourced.ends ?_ hends fun text htext => nomatch htext
  show Sourced ctx before source ((bodyStart ctx tag w).registers.get ctx.registers |>.store.getD {})
  rw [bodyStart_store]
  exact Sourced.onward h hsource

/-- Whatever happens in a render, the artifacts stay sourced. -/
theorem Chronicle.sourced (hc : ctx.Confined Registers.SameStore) (h : Chronicle ctx levels nodes w ds r w')
    (hw : SourcedAt ctx before w) : SourcedAt ctx (before ++ ds) w' := by
  -- A text may have been produced before these nodes, so the deeds so far are part of the invariant.
  induction h generalizing before with
  | nil =>
    rw [List.append_nil]
    exact hw
  | text _ ih => exact ih hw
  | output hv _ ih =>
    have hds := ih (hw.evaluate hc hv)
    rwa [List.append_assoc] at hds
  | outputFails hv => exact hw.evaluate hc hv
  | inclusion hb hbody hend _ ihbody ih =>
    have hds := ih ((ihbody (hw.begins hb)).inclusion hb hbody hend)
    rwa [List.append_assoc, List.append_assoc] at hds
  | inclusionFails hb hbody hend ihbody =>
    have hds := (ihbody (hw.begins hb)).inclusion hb hbody hend
    rwa [List.append_assoc] at hds
  | stopped hb hend => exact hw.stopped hb hend

/-- The artifacts of nodes that are rendered without any to begin with. -/
theorem exists_sourced_of_renderNodes (hc : ctx.Confined Registers.SameStore) {t : Template} {w w' : World σ}
    (hw : (w.registers.get ctx.registers).store = none) (hr : (cached.renderNodes ctx t).run w = (r, w')) :
    ∃ ds, Chronicle ctx (ctx.includeLimit - w.includeDepth) t.nodes w ds r w' ∧
      (w'.registers.get ctx.registers).store = stored ds none ∧ SourcedAt ctx ds w' := by
  rw [renderNodes_run] at hr
  obtain ⟨ds, h⟩ := exists_chronicle ctx (ctx.includeLimit - w.includeDepth) t.nodes w
  rw [hr] at h
  have hstore := h.store hc
  rw [hw] at hstore
  refine ⟨ds, h, hstore, ?_⟩
  have hstart : SourcedAt ctx [] w := by
    unfold SourcedAt
    rw [hw]
    intro name text htext
    cases htext
  exact h.sourced hc hstart

/-- The source that is kept with the text was answered to a read of the name after the text was produced. It is the
source that was parsed and rendered, if this one and all later reads of the name were answered alike. -/
def Traced (ctx : Context ω) (ds : List (Deed σ)) (s : Source) (a : Artifacts) (name text : String) : Prop :=
  ∃ earlier parsed moment kept, Produced ctx ds s name text earlier parsed moment ∧
    a.templates.get? name = some kept ∧ s.Told moment name kept ∧
    ((∀ other, s.Told earlier name other → other = parsed) → kept = parsed)

theorem Sourced.traced (h : Sourced ctx ds s a) (htext : a.renderedResults.get? name = some text) :
    Traced ctx ds s a name text := by
  obtain ⟨earlier, parsed, moment, kept, hproduced, hkept, htold⟩ := h name text htext
  refine ⟨earlier, parsed, moment, kept, hproduced, hkept, htold, fun hall => hall kept ?_⟩
  exact htold.mono ((List.suffix_cons name earlier).trans hproduced.reads) (.refl s)

/-- Whatever the source answers: each text among the artifacts of a render or of a precompilation was produced by an
inclusion of its name, the last one that was deferred, and the source that is kept with it was answered to a read of the
name after this. -/
theorem results_traced (hc : ctx.Confined Registers.SameStore) (t : Template) (w : World σ) :
    (∀ text w', (cached.render ctx t).run w = (.ok text, w') → ∃ ds w₁,
      Chronicle ctx (ctx.includeLimit - w.includeDepth) t.nodes (renderStart ctx w) ds (.ok text) w₁ ∧
      (w'.registers.get ctx.registers).store = stored ds none ∧
      ∀ name x, ((stored ds none).getD {}).renderedResults.get? name = some x →
        Traced ctx ds w'.source ((stored ds none).getD {}) name x) ∧
    ∀ p w', (cached.precompile ctx t).run w = (.ok p, w') → ∃ ds w₁,
      Chronicle ctx (ctx.includeLimit - w.includeDepth) t.nodes (precompileStart ctx w) ds (.ok p.source) w₁ ∧
      p.artifacts = (stored ds none).getD {} ∧
      ∀ name x, p.artifacts.renderedResults.get? name = some x →
        Traced ctx ds w'.source p.artifacts name x := by
  constructor
  · intro text w' hr
    rw [render_run] at hr
    obtain ⟨htext, rfl⟩ := Prod.mk.inj hr
    have hstart : ((renderStart ctx w).registers.get ctx.registers).store = none := by
      rw [get_renderStart]
      rfl
    obtain ⟨ds, hds, hstore, hsourced⟩ := exists_sourced_of_renderNodes hc hstart (Prod.ext htext rfl)
    refine ⟨ds, _, hds, hstore, fun name x hx => ?_⟩
    unfold SourcedAt at hsourced
    rw [hstore] at hsourced
    exact hsourced.traced hx
  · intro p w' hr
    rcases hnodes : (cached.renderNodes ctx t).run (precompileStart ctx w) with ⟨f | source, w₁⟩
    · rw [precompile_run_of_error hnodes] at hr
      cases hr
    · obtain ⟨event, hrun⟩ := precompile_run_of_ok hnodes
      rw [hrun] at hr
      cases hr
      have hstart : ((precompileStart ctx w).registers.get ctx.registers).store = none := by
        rw [get_precompileStart]
        rfl
      obtain ⟨ds, hds, hstore, hsourced⟩ := exists_sourced_of_renderNodes hc hstart hnodes
      refine ⟨ds, w₁, hds, congrArg (·.getD {}) hstore, fun name x hx => ?_⟩
      exact Sourced.traced hsourced hx

end Environment

namespace Sample

/-- A source that answers each read of the row with a new version. -/
def shifting : Source :=
  .ofSequence (NameMap.insert ∅ "row" [some "A \x7b\x7b user.name \x7d\x7d", some "B \x7b\x7b user.name \x7d\x7d"])

/-- The sample site with that source. -/
def shiftingWorld : World Heap :=
  { world with source := shifting }

/-- What a precompilation makes of the row: the text is that of the first version, and the source is the second. -/
def shifted : Precompiled :=
  { source := "\x7b% include 'row' %\x7d"
    artifacts := {
      templates := .ofList [("row", "B \x7b\x7b user.name \x7d\x7d")]
      renderedResults := .ofList [("row", "A Ann")] } }

theorem precompile_shifting :
    ((Environment.cached.precompile (context "Ann") ⟨[.inclusion rowTag]⟩).run shiftingWorld).1 = .ok shifted := by
  cbv

theorem confined_context (name : String) : (context name).Confined Registers.SameStore :=
  (pure_context name).1.confined Registers.bound_sameStore

/-- Where the text and the source of the row come from. -/
theorem shifted_traced : ∃ ds s, shifted.artifacts = (stored ds none).getD {} ∧
    Environment.Traced (context "Ann") ds s shifted.artifacts "row" "A Ann" := by
  have hprecompiled := precompile_shifting
  rcases hr : (Environment.cached.precompile (context "Ann") ⟨[.inclusion rowTag]⟩).run shiftingWorld with ⟨r, w'⟩
  rw [hr] at hprecompiled
  obtain rfl : r = .ok shifted := hprecompiled
  obtain ⟨ds, w₁, -, hartifacts, htraced⟩ :=
    (Environment.results_traced (confined_context "Ann") ⟨[.inclusion rowTag]⟩ shiftingWorld).2 shifted w' hr
  have htext : shifted.artifacts.renderedResults.get? "row" = some "A Ann" := by cbv
  exact ⟨ds, w'.source, hartifacts, htraced "row" "A Ann" htext⟩

/-- An object that writes a text among the artifacts when it is accessed. -/
structure Forger where
  registers : Handle

instance : DataModel Forger Unit where
  setRegisters o h := pure { o with registers := h }
  toRenderable o := pure (.bare o)
  invoke o _ := do
    Run.modify fun w => w.modifyRegisters o.registers (·.mapStore (·.insertResult "foot" "Eve"))
    return .json (.string "Eve")
  toOutput _ := pure ""

/-- A user that writes a text for the foot. -/
def forging : Context Forger :=
  { assigns := NameMap.insert ∅ "user" (.object (.bare ⟨⟨0⟩⟩)), registers := ⟨0⟩, includeLimit := 8 }

/-- The source that is kept with a text need not be the one that was rendered to it: no inclusion renders the source
that is kept for the row to the text that is kept for it. And if objects write artifacts, there may be a text without a
source. -/
theorem kept_source_differs :
    (((Environment.cached.precompile (context "Ann") ⟨[.inclusion rowTag]⟩).run shiftingWorld).1 = .ok shifted ∧
      shifted.artifacts.renderedResults.get? "row" = some "A Ann" ∧
      ∀ kept, shifted.artifacts.templates.get? "row" = some kept → ∀ earlier, ∀ u : World Heap,
        ¬Environment.Renders (context "Ann") shifting "row" earlier kept "A Ann" u) ∧
    ((Environment.cached.precompile forging ⟨[.output ⟨"user", ["name"]⟩]⟩).run (cachingWorld world.source)).1 =
      .ok { source := "Eve", artifacts := { renderedResults := .ofList [("foot", "Eve")] } } := by
  refine ⟨⟨precompile_shifting, by cbv, ?_⟩, by cbv⟩
  intro kept hkept earlier u
  have hget : shifted.artifacts.templates.get? "row" = some "B \x7b\x7b user.name \x7d\x7d" := by cbv
  obtain rfl := Option.some.inj (hget.symm.trans hkept)
  rintro ⟨-, t, levels, w₁, hparse, -, hrun⟩
  have ht : Template.parse "B \x7b\x7b user.name \x7d\x7d" = .ok ⟨[.text "B ", .output ⟨"user", ["name"]⟩]⟩ := by
    cbv
  obtain rfl := Except.ok.inj (ht.symm.trans hparse)
  obtain ⟨text, w₂, htext, hrest⟩ := Run.bind_eq_ok hrun
  obtain ⟨rest, w₃, -, hanswer⟩ := Run.bind_eq_ok hrest
  obtain ⟨rfl, -⟩ := Run.pure_eq_ok htext
  obtain ⟨heq, -⟩ := Run.pure_eq_ok hanswer
  have hchars : "B ".toList ++ rest.toList = "A Ann".toList := by
    rw [← String.toList_append, heq]
  simp at hchars

end Sample

end HybridTemplate
