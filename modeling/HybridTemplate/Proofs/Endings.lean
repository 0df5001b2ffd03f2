import HybridTemplate.Proofs.Interception

/-!
# How inclusions end

In the text of a caching render one can no longer tell frozen text from the directives of deferred inclusions, and an
inclusion reads more sources than that of its template. Here an inclusion answers with the way in which it ended, and
what it read and wrote is said once for each of the ways.

* `Source.Onward`, `Source.Told` — what a part of a render can do to the source: it reads, and what it is told may be
  different each time;
* `endInclusion` — an inclusion as `cacheAware` renders it, with its `Ending` as the answer
  (`cacheAware_eq_map_answer`);
* `Ends`, `endInclusion_ends` — the ways to end: the frame is popped, and then the text is frozen, or the sources are
  read again and the artifacts are written.
-/

namespace HybridTemplate

open World

variable {ω σ : Type}

/-! ## Reads -/

namespace Source

variable {s s₁ s₂ s' : Source} {C : Catalog} {name text : String}

/-- Between the two states the source was read at most. -/
structure Onward (s s' : Source) : Prop where
  answer : s'.answer = s.answer
  reads : s.reads <:+ s'.reads

/-- After the reads `since`, a read of the name was answered with the text. -/
def Told (s : Source) (since : List String) (name text : String) : Prop :=
  ∃ earlier, since <:+ earlier ∧ name :: earlier <:+ s.reads ∧ s.answer earlier name = .ok text

theorem Onward.refl (s : Source) : s.Onward s :=
  ⟨rfl, List.suffix_refl _⟩

theorem Onward.trans (h₁ : s.Onward s₁) (h₂ : s₁.Onward s₂) : s.Onward s₂ :=
  ⟨h₂.answer.trans h₁.answer, h₁.reads.trans h₂.reads⟩

theorem onward_read (s : Source) (name : String) : s.Onward (s.read name).2 :=
  ⟨rfl, List.suffix_cons _ _⟩

theorem told_read (h : s.answer s.reads name = .ok text) : (s.read name).2.Told s.reads name text :=
  ⟨s.reads, List.suffix_refl _, List.suffix_refl _, h⟩

/-- What was told is still told later, and after fewer reads. -/
theorem Told.mono {since since' : List String} (h : s.Told since name text) (hsince : since' <:+ since)
    (hs : s.Onward s') : s'.Told since' name text := by
  obtain ⟨earlier, hfrom, hto, hanswer⟩ := h
  exact ⟨earlier, hsince.trans hfrom, hto.trans hs.reads, hs.answer ▸ hanswer⟩

theorem Serves.told {since : List String} (hs : s.Serves C) (h : s.Told since name text) : C name = .ok text := by
  obtain ⟨earlier, -, -, hanswer⟩ := h
  rw [← hs earlier, hanswer]

end Source

/-- A read of a template is a read of its source. -/
theorem World.readTemplate_cases (name : String) (w : World σ) :
    ((readTemplate name).run w).2 = { w with source := (w.source.read name).2 } ∧
      ∀ text, ((readTemplate name).run w).1 = .ok text → w.source.answer w.source.reads name = .ok text := by
  rw [readTemplate_run]
  split
  · rename_i text hanswer
    refine ⟨rfl, fun text' htext => ?_⟩
    cases htext
    exact hanswer
  · refine ⟨rfl, fun text' htext => ?_⟩
    cases htext

/-- Reads of templates are reads of their sources, one after the other. -/
theorem World.readTemplates_cases (names : List String) (w : World σ) :
    ∃ s, ((readTemplates names).run w).2 = { w with source := s } ∧ w.source.Onward s ∧
      ∀ pairs, ((readTemplates names).run w).1 = .ok pairs →
        pairs.map Prod.fst = names ∧ ∀ e ∈ pairs, s.Told w.source.reads e.1 e.2 := by
  induction names generalizing w with
  | nil =>
    refine ⟨w.source, rfl, .refl _, fun pairs hpairs => ?_⟩
    cases hpairs
    exact ⟨rfl, List.forall_mem_nil _⟩
  | cons name names ih =>
    obtain ⟨hstate, htext⟩ := readTemplate_cases name w
    rw [readTemplates]
    rcases hread : (readTemplate name).run w with ⟨f | text, w₁⟩
    · rw [hread] at hstate
      rw [Run.bind_run_of_error hread]
      refine ⟨(w.source.read name).2, hstate, w.source.onward_read name, fun pairs hpairs => ?_⟩
      cases hpairs
    · rw [hread] at hstate htext
      have hstate : w₁ = { w with source := (w.source.read name).2 } := hstate
      have hanswer := htext text rfl
      obtain ⟨s, hs, honward, hrest⟩ := ih { w with source := (w.source.read name).2 }
      rw [Run.bind_run_of_ok hread, hstate]
      rcases hreads : (readTemplates names).run { w with source := (w.source.read name).2 } with ⟨f | pairs, w₂⟩
      · rw [hreads] at hs
        rw [Run.bind_run_of_error hreads]
        refine ⟨s, hs, (w.source.onward_read name).trans honward, fun pairs hpairs => ?_⟩
        cases hpairs
      · rw [hreads] at hs hrest
        rw [Run.bind_run_of_ok hreads]
        refine ⟨s, hs, (w.source.onward_read name).trans honward, fun pairs' hpairs => ?_⟩
        cases hpairs
        obtain ⟨hnames, htold⟩ := hrest pairs rfl
        refine ⟨congrArg _ hnames, List.forall_mem_cons.mpr ⟨?_, fun e he => ?_⟩⟩
        · exact (Source.told_read hanswer).mono (List.suffix_refl _) honward
        · exact (htold e he).mono (List.suffix_cons _ _) (.refl _)

/-! ## How an inclusion ends -/

/-- How an inclusion that answers has ended. -/
inductive Ending where
  /-- Outside caching mode its text takes its place, and that is all. -/
  | untracked (text : String)
  | frozen (text : String)
  /-- The directive stays. After the reads `earlier` its source was read once more and the sources of what was inlined
  beneath it. -/
  | deferred (text : String) (earlier : List String) (source : String) (inlined : List (String × String))

/-- An inclusion that has ended. -/
structure Visit where
  /-- The name of the included template. -/
  key : String
  /-- The reads before the inclusion, latest first; the next one is of its source. -/
  earlier : List String
  /-- How it ended, unless it failed. -/
  ending : Option Ending

namespace Ending

/-- What takes the place of the tag. -/
def answer (tag : Inclusion) : Ending → String
  | untracked text => text
  | frozen text => text
  | deferred _ _ _ _ => tag.directive

end Ending

/-- What follows the bracket of an inclusion, with the way in which it ends as the answer. -/
def settleEnding (ctx : Context ω) (tag : Inclusion) (text : String) (frame : Frame) : RenderRun σ Ending := do
  if frame.cacheable then
    report (.frozen tag.key)
    modifyRegisters ctx.registers (·.mapStack (·.recordInlined frame))
    return .frozen text
  else
    let earlier ← Run.look fun w => w.source.reads
    let source ← readTemplate tag.key
    let inlined ← readTemplates frame.inlined.toList
    let r ← registersOf ctx.registers
    report (.deferred tag.key r.depth inlined.length r.policy)
    modifyRegisters ctx.registers (·.mapStore (·.defer tag.key source text inlined))
    return .deferred text earlier source inlined

/-- An inclusion as `cacheAware` renders it, with the way in which it ends as the answer. -/
def endInclusion (ctx : Context ω) (tag : Inclusion) (inner : RenderRun σ String) : RenderRun σ Ending := do
  if (← registersOf ctx.registers).caching then
    let (text, frame) ← track ctx.registers tag.key inner
    settleEnding ctx tag text frame
  else
    return .untracked (← inner)

/-- A frame that is cacheable is recorded on the one around it. -/
theorem settleEnding_run_of_cacheable (ctx : Context ω) (tag : Inclusion) (text : String) {frame : Frame}
    (h : frame.cacheable = true) (w : World σ) :
    (settleEnding ctx tag text frame).run w =
      (.ok (.frozen text), { w with
        toShared := (w.toShared.report (.frozen tag.key)).modifyRegisters ctx.registers
          (·.mapStack (·.recordInlined frame)) }) := by
  unfold settleEnding
  rw [if_pos h]
  rfl

/-- If the frame is not cacheable, the sources are read again; if all of them are there, they are written with the text
and nothing else happens. -/
theorem settleEnding_cases_of_not_cacheable (ctx : Context ω) (tag : Inclusion) (text : String) {frame : Frame}
    (h : frame.cacheable = false) (w : World σ) :
    (∃ f s, (settleEnding ctx tag text frame).run w = (.error f, { w with source := s }) ∧ w.source.Onward s) ∨
      ∃ source inlined s event, (settleEnding ctx tag text frame).run w =
          (.ok (.deferred text w.source.reads source inlined), { w with
            source := s
            toShared := (w.toShared.report event).modifyRegisters ctx.registers
              (·.mapStore (·.defer tag.key source text inlined)) }) ∧
        w.source.answer w.source.reads tag.key = .ok source ∧ (w.source.read tag.key).2.Onward s ∧
        inlined.map Prod.fst = frame.inlined.toList ∧ ∀ e ∈ inlined, s.Told (tag.key :: w.source.reads) e.1 e.2 := by
  obtain ⟨hstate, hsource⟩ := readTemplate_cases tag.key w
  obtain ⟨s, hs, honward, hinlined⟩ :=
    readTemplates_cases frame.inlined.toList { w with source := (w.source.read tag.key).2 }
  unfold settleEnding
  rw [if_neg (Bool.not_eq_true _ ▸ h), Run.bind_run_of_ok (Run.look_run _ _)]
  rcases hread : (readTemplate tag.key).run w with ⟨f | source, w₁⟩
  · rw [hread] at hstate
    have hstate : w₁ = { w with source := (w.source.read tag.key).2 } := hstate
    rw [Run.bind_run_of_error hread, hstate]
    exact .inl ⟨f, _, rfl, w.source.onward_read tag.key⟩
  · rw [hread] at hstate hsource
    have hstate : w₁ = { w with source := (w.source.read tag.key).2 } := hstate
    rw [Run.bind_run_of_ok hread, hstate]
    rcases hreads : (readTemplates frame.inlined.toList).run { w with source := (w.source.read tag.key).2 } with
      ⟨f | inlined, w₂⟩
    · rw [hreads] at hs
      have hs : w₂ = { w with source := s } := hs
      rw [Run.bind_run_of_error hreads, hs]
      exact .inl ⟨f, s, rfl, (w.source.onward_read tag.key).trans honward⟩
    · rw [hreads] at hs hinlined
      have hs : w₂ = { w with source := s } := hs
      rw [Run.bind_run_of_ok hreads, hs]
      exact .inr ⟨source, inlined, s, _, rfl, hsource source rfl, honward, hinlined inlined rfl⟩

theorem endInclusion_run (ctx : Context ω) (tag : Inclusion) (inner : RenderRun σ String) (w : World σ) :
    (endInclusion ctx tag inner).run w =
      if (w.registers.get ctx.registers).caching = true then
        (track ctx.registers tag.key inner >>= fun r => settleEnding ctx tag r.1 r.2).run w
      else (Ending.untracked <$> inner).run w := by
  rw [endInclusion, Run.bind_run_of_ok (registersOf_run _ _)]
  split
  · rfl
  · rw [map_eq_pure_bind]

theorem settleInclusion_eq_map_answer (ctx : Context ω) (tag : Inclusion) (text : String) (frame : Frame) :
    settleInclusion (σ := σ) ctx tag text frame = Ending.answer tag <$> settleEnding ctx tag text frame := by
  unfold settleInclusion settleEnding
  split
  · simp only [map_bind, map_pure, Ending.answer]
  · simp only [map_bind, map_pure, Ending.answer]
    rfl

/-- The inclusion is the same, whether it answers with a text or with the way in which it ends. -/
theorem cacheAware_eq_map_answer (ctx : Context ω) (tag : Inclusion) (inner : RenderRun σ String) :
    cacheAware ctx tag inner = Ending.answer tag <$> endInclusion ctx tag inner := by
  refine Run.ext fun w => ?_
  rw [cacheAware_run, Run.map_run, endInclusion_run]
  by_cases hcaching : (w.registers.get ctx.registers).caching = true
  · rw [if_pos hcaching, if_pos hcaching, ← Run.map_run, map_bind]
    simp only [settleInclusion_eq_map_answer]
  · rw [if_neg hcaching, if_neg hcaching, ← Run.map_run, Functor.map_map]
    simp only [Ending.answer, id_map']

/-- The state after the innermost frame has been taken off. -/
def World.popped (w : World σ) (h : Registers.Handle) (stack : FrameStack) : World σ :=
  { w with toShared := w.toShared.modifyRegisters h fun r => { r with stack } }

theorem World.stack_popped (w : World σ) (h : Registers.Handle) (stack : FrameStack) :
    ((w.popped h stack).registers.get h).stack = stack := by
  unfold popped
  rw [Shared.get_modifyRegisters_self]

theorem World.store_popped (w : World σ) (h : Registers.Handle) (stack : FrameStack) :
    ((w.popped h stack).registers.get h).store = (w.registers.get h).store := by
  unfold popped
  rw [Shared.get_modifyRegisters_self]

/-- How an inclusion that is begun in `w` ends, after its body has ended in `u` as `r` says. -/
inductive Ends (ctx : Context ω) (tag : Inclusion) (w : World σ) (r : Except (Failure RenderError) String)
    (u : World σ) : Except (Failure RenderError) Ending → World σ → Prop
  | untracked (hcaching : (w.registers.get ctx.registers).caching = false) : Ends ctx tag w r u (r.map .untracked) u
  | underflow (hcaching : (w.registers.get ctx.registers).caching = true)
      (hp : (u.registers.get ctx.registers).stack.pop? = none) :
      Ends ctx tag w r u (.error (.abort .stackUnderflow)) u
  /-- The body fails. -/
  | failed {f : Failure RenderError} {frame : Frame} {stack : FrameStack}
      (hcaching : (w.registers.get ctx.registers).caching = true) (hr : r = .error f)
      (hp : (u.registers.get ctx.registers).stack.pop? = some (frame, stack)) :
      Ends ctx tag w r u (.error f) (u.popped ctx.registers stack)
  | frozen {text : String} {frame : Frame} {stack : FrameStack}
      (hcaching : (w.registers.get ctx.registers).caching = true) (hr : r = .ok text)
      (hp : (u.registers.get ctx.registers).stack.pop? = some (frame, stack)) (hframe : frame.cacheable = true) :
      Ends ctx tag w r u (.ok (.frozen text)) { u.popped ctx.registers stack with
        toShared := ((u.popped ctx.registers stack).toShared.report (.frozen tag.key)).modifyRegisters ctx.registers
          (·.mapStack (·.recordInlined frame)) }
  /-- A source is not there when it is read again. -/
  | withheld {text : String} {frame : Frame} {stack : FrameStack} {f : Failure RenderError} {s : Source}
      (hcaching : (w.registers.get ctx.registers).caching = true) (hr : r = .ok text)
      (hp : (u.registers.get ctx.registers).stack.pop? = some (frame, stack)) (hframe : frame.cacheable = false)
      (hs : u.source.Onward s) :
      Ends ctx tag w r u (.error f) { u.popped ctx.registers stack with source := s }
  | deferred {text : String} {frame : Frame} {stack : FrameStack} {source : String}
      {inlined : List (String × String)} {s : Source} {event : Event}
      (hcaching : (w.registers.get ctx.registers).caching = true) (hr : r = .ok text)
      (hp : (u.registers.get ctx.registers).stack.pop? = some (frame, stack)) (hframe : frame.cacheable = false)
      (hsource : u.source.answer u.source.reads tag.key = .ok source) (hs : (u.source.read tag.key).2.Onward s)
      (hnames : inlined.map Prod.fst = frame.inlined.toList)
      (hinlined : ∀ e ∈ inlined, s.Told (tag.key :: u.source.reads) e.1 e.2) :
      Ends ctx tag w r u (.ok (.deferred text u.source.reads source inlined)) { u.popped ctx.registers stack with
        source := s
        toShared := ((u.popped ctx.registers stack).toShared.report event).modifyRegisters ctx.registers
          (·.mapStore (·.defer tag.key source text inlined)) }

/-- Each run of an inclusion ends in one of these ways. -/
theorem endInclusion_ends {ctx : Context ω} {tag : Inclusion} {inner : RenderRun σ String} {w u w' : World σ}
    {r : Except (Failure RenderError) String} {e : Except (Failure RenderError) Ending}
    (hi : inner.run (Environment.bodyStart ctx tag w) = (r, u)) (hend : (endInclusion ctx tag inner).run w = (e, w')) :
    Ends ctx tag w r u e w' := by
  obtain ⟨rfl, rfl⟩ : ((endInclusion ctx tag inner).run w).1 = e ∧ ((endInclusion ctx tag inner).run w).2 = w' := by
    rw [hend]
    exact ⟨rfl, rfl⟩
  rw [endInclusion_run]
  unfold Environment.bodyStart at hi
  by_cases hcaching : (w.registers.get ctx.registers).caching = true
  · rw [if_pos hcaching] at hi ⊢
    rcases hp : (u.registers.get ctx.registers).stack.pop? with _ | ⟨frame, stack⟩
    · have htrack : (track ctx.registers tag.key inner).run w = (.error (.abort .stackUnderflow), u) := by
        rw [track_run, hi]
        simp only [popFrame, Run.run, hp]
      rw [Run.bind_run_of_error htrack]
      exact .underflow hcaching hp
    · have htrack := track_run_of_pop? hi hp
      cases r with
      | error f =>
        rw [Run.bind_run_of_error htrack]
        exact .failed hcaching rfl hp
      | ok text =>
        rw [Run.bind_run_of_ok htrack]
        cases hframe : frame.cacheable with
        | true =>
          rw [settleEnding_run_of_cacheable ctx tag text hframe]
          exact .frozen hcaching rfl hp hframe
        | false =>
          obtain ⟨f, s, hsettle, hs⟩ | ⟨source, inlined, s, event, hsettle, hsource, hs, hnames, hinlined⟩ :=
            settleEnding_cases_of_not_cacheable ctx tag text hframe (u.popped ctx.registers stack)
          · rw [← World.popped, hsettle]
            exact .withheld hcaching rfl hp hframe hs
          · rw [← World.popped, hsettle]
            exact .deferred hcaching rfl hp hframe hsource hs hnames hinlined
  · rw [if_neg hcaching] at hi ⊢
    rw [Run.map_run, hi]
    exact .untracked (Bool.eq_false_iff.mpr hcaching)

/-- An inclusion whose body fails has failed. -/
theorem Ends.error {ctx : Context ω} {tag : Inclusion} {w u w' : World σ} {f : Failure RenderError}
    {e : Except (Failure RenderError) Ending} (h : Ends ctx tag w (.error f) u e w') : ∃ f', e = .error f' := by
  cases h with
  | untracked => exact ⟨f, rfl⟩
  | underflow => exact ⟨_, rfl⟩
  | failed => exact ⟨_, rfl⟩
  | withheld => exact ⟨_, rfl⟩
  | frozen _ hr => cases hr
  | deferred _ hr => cases hr

/-- From its body to its end an inclusion reads sources at most. -/
theorem Ends.onward {ctx : Context ω} {tag : Inclusion} {w u w' : World σ} {r : Except (Failure RenderError) String}
    {e : Except (Failure RenderError) Ending} (h : Ends ctx tag w r u e w') : u.source.Onward w'.source := by
  cases h with
  | untracked => exact .refl _
  | underflow => exact .refl _
  | failed => exact .refl _
  | frozen => exact .refl _
  | withheld _ _ _ _ hs => exact hs
  | deferred _ _ _ _ _ hs => exact (u.source.onward_read tag.key).trans hs

/-- The artifacts after an inclusion: only one that was deferred writes, and it writes its source, its text and the
sources of what was inlined beneath it. -/
def Visit.stored (v : Visit) (a : Option Artifacts) : Option Artifacts :=
  match v.ending with
  | some (.deferred text _ source inlined) => some ((a.getD {}).defer v.key source text inlined)
  | _ => a

/-- After its body an inclusion writes what it says, and nothing else. -/
theorem Ends.store {ctx : Context ω} {tag : Inclusion} {w u w' : World σ} {r : Except (Failure RenderError) String}
    {e : Except (Failure RenderError) Ending} (h : Ends ctx tag w r u e w') (earlier : List String) :
    (w'.registers.get ctx.registers).store =
      Visit.stored ⟨tag.key, earlier, e.toOption⟩ (u.registers.get ctx.registers).store := by
  cases h with
  | untracked => cases r <;> rfl
  | underflow => rfl
  | failed => exact u.store_popped _ _
  | frozen =>
    rw [Shared.get_modifyRegisters_self]
    exact u.store_popped _ _
  | withheld => exact u.store_popped _ _
  | @deferred text frame stack source inlined =>
    rw [Shared.get_modifyRegisters_self]
    exact congrArg (fun a => some ((a.getD {}).defer tag.key source text inlined)) (u.store_popped _ stack)

namespace Environment

theorem bodyStart_source (ctx : Context ω) (tag : Inclusion) (w : World σ) :
    (bodyStart ctx tag w).source = w.source := by
  unfold bodyStart
  split <;> rfl

theorem bodyStart_includeDepth (ctx : Context ω) (tag : Inclusion) (w : World σ) :
    (bodyStart ctx tag w).includeDepth = w.includeDepth := by
  unfold bodyStart
  split <;> rfl

theorem bodyStart_store (ctx : Context ω) (tag : Inclusion) (w : World σ) :
    ((bodyStart ctx tag w).registers.get ctx.registers).store = (w.registers.get ctx.registers).store := by
  unfold bodyStart
  split
  · unfold World.entered
    rw [Shared.get_modifyRegisters_self]
    rfl
  · rfl

/-- An inclusion that begins has read its source. -/
theorem Begins.read {ctx : Context ω} {tag : Inclusion} {t : Template} {w w₁ : World σ} (hb : Begins ctx tag w t w₁) :
    w₁ = { (bodyStart ctx tag w).deeper with source := (w.source.read tag.key).2 } ∧
      ∃ source, w.source.answer w.source.reads tag.key = .ok source ∧ Template.parse source = .ok t := by
  obtain ⟨-, source, hread, hparse⟩ := hb
  obtain ⟨hstate, hsource⟩ := readTemplate_cases tag.key (bodyStart ctx tag w).deeper
  have hstart : (bodyStart ctx tag w).deeper.source = w.source := bodyStart_source ctx tag w
  rw [hread, hstart] at hstate hsource
  exact ⟨hstate, source, hsource source rfl, hparse⟩

theorem Begins.onward {ctx : Context ω} {tag : Inclusion} {t : Template} {w w₁ : World σ}
    (hb : Begins ctx tag w t w₁) : w.source.Onward w₁.source := by
  rw [hb.read.1]
  exact w.source.onward_read tag.key

theorem Begins.store {ctx : Context ω} {tag : Inclusion} {t : Template} {w w₁ : World σ} (hb : Begins ctx tag w t w₁) :
    (w₁.registers.get ctx.registers).store = (w.registers.get ctx.registers).store := by
  rw [hb.read.1]
  exact bodyStart_store ctx tag w

end Environment

end HybridTemplate
