import HybridTemplate.Proofs.Acts
import HybridTemplate.Proofs.Watched

/-!
# Objects do not read the log

The log is written by a render and by the layers around objects, and nobody reads it. Objects see of the registers what
is in them. So from states that differ in the log they do the same.

* `Shared.Alike` — states that are the same but for the log;
* `IgnoresLog` — objects that cannot tell such states apart, and also not when they are watched (`IgnoresLog.watched`);
* `Scripted.ignoresLog` — objects by scripts are of this kind, whatever their scripts are.
-/

namespace HybridTemplate

open Registers (Handle)

/-! ## States that differ in the log -/

/-- The objects are in the same state, and the registers of each handle are the same. -/
structure Shared.Alike {σ : Type} (w w' : Shared σ) : Prop where
  objects : w.objects = w'.objects
  registers : ∀ h, w.registers.get h = w'.registers.get h

section

variable {ω σ α : Type} {w w' w'' : Shared σ}

namespace Shared.Alike

theorem refl (w : Shared σ) : w.Alike w :=
  ⟨rfl, fun _ => rfl⟩

theorem symm (hw : w.Alike w') : w'.Alike w :=
  ⟨hw.objects.symm, fun h => (hw.registers h).symm⟩

theorem trans (hw : w.Alike w') (hw' : w'.Alike w'') : w.Alike w'' :=
  ⟨hw.objects.trans hw'.objects, fun h => (hw.registers h).trans (hw'.registers h)⟩

theorem reported (w : Shared σ) (e : Event) : (w.report e).Alike w :=
  ⟨rfl, fun _ => rfl⟩

theorem report (hw : w.Alike w') (e e' : Event) : (w.report e).Alike (w'.report e') :=
  ⟨hw.objects, hw.registers⟩

theorem modify (hw : w.Alike w') (h : Handle) (g : Registers → Registers) :
    (w.modifyRegisters h g).Alike (w'.modifyRegisters h g) := by
  refine ⟨hw.objects, fun k => ?_⟩
  by_cases hk : k = h
  · subst hk
    rw [get_modifyRegisters_self, get_modifyRegisters_self, hw.registers]
  · rw [modifyRegisters, modifyRegisters, Bank.get_modify_of_ne _ _ hk, Bank.get_modify_of_ne _ _ hk, hw.registers]

theorem unwatched {w w' : Shared (Watch ω σ)} (hw : w.Alike w') : w.unwatched.Alike w'.unwatched :=
  ⟨congrArg Watch.objects hw.objects, hw.registers⟩

theorem watched (hw : w.Alike w') (calls : List (Call ω)) : (w.watched calls).Alike (w'.watched calls) :=
  ⟨congrArg (Watch.mk · calls) hw.objects, hw.registers⟩

end Shared.Alike

/-- A layer marks in states that are alike, and leaves such states. -/
theorem DataObject.alike_taint (member : String) (registers : Option Handle) :
    Run.Related Shared.Alike Eq (taint (σ := σ) registers member) (taint registers member) := by
  intro w w' hw
  cases registers with
  | none => exact ⟨.ok rfl, hw⟩
  | some h => exact ⟨.ok rfl, (hw.report _ _).modify h Registers.markUncacheable⟩

/-- All objects do the same in states that differ in the log. -/
structure IgnoresLog (ω : Type) {σ : Type} [DataModel ω σ] : Prop where
  invoke : ∀ (o : ω) member, Run.Related Shared.Alike Eq (DataModel.invoke o member) (DataModel.invoke o member)
  toOutput : ∀ o : ω, Run.Related Shared.Alike Eq (DataModel.toOutput o) (DataModel.toOutput o)

theorem Watched.alike_access {x : ObjectRun σ α} (hx : Run.Related Shared.Alike Eq x x)
    (note : Except (Failure RenderError) α → Call ω) :
    Run.Related Shared.Alike Eq (Watched.access x note) (Watched.access x note) := by
  intro w w' hw
  obtain ⟨hans, hend⟩ := hx _ _ hw.unwatched
  have hcalls : w.objects.calls = w'.objects.calls := congrArg Watch.calls hw.objects
  show EndsAlike Eq (x.run w.unwatched).1 (x.run w'.unwatched).1 ∧
    ((x.run w.unwatched).2.watched (note (x.run w.unwatched).1 :: w.objects.calls)).Alike
      ((x.run w'.unwatched).2.watched (note (x.run w'.unwatched).1 :: w'.objects.calls))
  rw [hans.eq, hcalls]
  exact ⟨.of_eq (fun _ => rfl) rfl, hend.watched _⟩

theorem IgnoresLog.watched [DataModel ω σ] (ho : IgnoresLog ω) : IgnoresLog (Watched ω) where
  invoke o member :=
    (Watched.alike_access (ho.invoke o.object member) _).bind fun _ _ hv => hv ▸ Run.related_pure rfl
  toOutput o := Watched.alike_access (ho.toOutput o.object) _

end

/-! ## Scripts -/

namespace Scripted

/-- From states that are alike the step gives the same and leaves such states. -/
def AlikeStep {α : Type} (x : StateM (Shared Heap) α) : Prop :=
  ∀ w w' : Shared Heap, w.Alike w' → (x.run w).1 = (x.run w').1 ∧ (x.run w).2.Alike (x.run w').2

section

variable {α β : Type} {x : StateM (Shared Heap) α}

theorem AlikeStep.bind {f : α → StateM (Shared Heap) β} (hx : AlikeStep x) (hf : ∀ a, AlikeStep (f a)) :
    AlikeStep (x >>= f) := by
  intro w w' hw
  obtain ⟨hans, hend⟩ := hx w w' hw
  show ((f (x.run w).1).run (x.run w).2).1 = ((f (x.run w').1).run (x.run w').2).1 ∧
    ((f (x.run w).1).run (x.run w).2).2.Alike ((f (x.run w').1).run (x.run w').2).2
  rw [hans]
  exact hf _ _ _ hend

theorem alikeStep_pure (a : α) : AlikeStep (pure a) :=
  fun _ _ hw => ⟨rfl, hw⟩

theorem alike_onHeap (g : Heap → Heap) {w w' : Shared Heap} (hw : w.Alike w') : (onHeap g w).Alike (onHeap g w') :=
  ⟨congrArg g hw.objects, hw.registers⟩

theorem alikeStep_modify (g : Heap → Heap) : AlikeStep (modify (onHeap g)) :=
  fun _ _ hw => ⟨rfl, alike_onHeap g hw⟩

theorem alikeStep_make (script : Script) : AlikeStep (make script) := by
  intro w w' hw
  refine ⟨?_, alike_onHeap (fun m => { m with counts := m.counts ++ [0] }) hw⟩
  show (DataObject.bare { script, cell := w.objects.counts.length : Scripted }).wrap script.layers = _
  rw [hw.objects]
  rfl

theorem alikeStep_setRegisters (k : Handle) (o : DataObject Scripted) : AlikeStep (DataObject.setRegisters k o) := by
  induction o with
  | bare o =>
    have ho : AlikeStep (Exposable.setRegisters o k) := by
      show AlikeStep (o.setRegisters k)
      rw [Scripted.setRegisters]
      split
      · exact alikeStep_pure o
      · exact (alikeStep_modify _).bind fun _ => alikeStep_pure _
    exact ho.bind fun _ => alikeStep_pure _
  | uncacheable o registers ih => exact ih.bind fun _ => alikeStep_pure _

theorem alikeStep_toRenderable (o : DataObject Scripted) : AlikeStep o.toRenderable := by
  induction o with
  | bare o =>
    show AlikeStep o.toRenderable
    rw [Scripted.toRenderable]
    refine (alikeStep_modify _).bind fun _ => ?_
    split
    · exact alikeStep_make _
    · exact alikeStep_pure _
  | uncacheable o registers ih => exact ih.bind fun _ => alikeStep_pure _

theorem related_always (hx : AlikeStep x) : Run.Related Shared.Alike Eq (always x) (always x) :=
  fun w w' hw => ⟨.of_eq (fun _ => rfl) (congrArg Except.ok (hx w w' hw).1), (hx w w' hw).2⟩

end

theorem alike_modify (g : Heap → Heap) :
    Run.Related Shared.Alike Eq (Run.modify (onHeap g) : ObjectRun Heap Unit) (Run.modify (onHeap g)) :=
  Run.related_modify fun _ _ hw => alike_onHeap g hw

/-- An act looks at its count and at what is in the registers, and at nothing else. -/
theorem alike_perform (o : Scripted) (member : String) (act : Act) :
    Run.Related Shared.Alike Eq (o.perform member act) (o.perform member act) := by
  obtain ⟨effects, answer⟩ := act
  rw [perform]
  have hcount : Run.Related Shared.Alike Eq o.countAct o.countAct :=
    (alike_modify _).bind fun _ _ _ => Run.related_look fun w w' hw => congrArg (·.counts.getD o.cell 0) hw.objects
  have heffects : ∀ h, Run.Related Shared.Alike Eq
      (Run.modify fun w => w.modifyRegisters h (effects.foldl Effect.apply) : ObjectRun Heap Unit)
      (Run.modify fun w => w.modifyRegisters h (effects.foldl Effect.apply)) :=
    fun h => Run.related_modify fun _ _ hw => hw.modify h _
  have hpure : ∀ v, Run.Related Shared.Alike Eq (pure v : ObjectRun Heap (Value Scripted)) (pure v) :=
    fun v => Run.related_pure rfl
  refine hcount.bind fun count count' hcc => ?_
  subst hcc
  extract_lets answering
  have hanswering : ∀ u, Run.Related Shared.Alike Eq (answering u) (answering u) := by
    intro u
    simp only [answering]
    split
    · exact Run.related_fail _
    · exact Run.related_fail _
    · exact hpure _
    · split
      · exact hpure _
      · refine (Run.related_look (q := Eq) fun _ _ hw => hw.registers _).bind fun r r' hr => ?_
        subst hr
        exact hpure _
    · exact (related_always (alikeStep_make _)).bind fun _ _ ho => ho ▸ hpure _
    · refine (related_always ((alikeStep_make _).bind alikeStep_toRenderable)).bind fun object object' ho => ?_
      subst ho
      split
      · exact hpure _
      · exact (related_always (alikeStep_setRegisters _ object)).bind fun _ _ ho => ho ▸ hpure _
    · exact hpure _
  split
  · exact (heffects _).bind fun u _ _ => hanswering u
  · exact hanswering ()

theorem alike_outputWithin (n : Nat) (o : Scripted) :
    Run.Related Shared.Alike Eq (outputWithin n o) (outputWithin n o) := by
  induction n generalizing o with
  | zero => exact Run.related_pure rfl
  | succ n ih =>
    rw [outputWithin]
    split
    · exact Run.related_pure rfl
    · refine (alike_modify _).bind fun _ _ _ => ?_
      split
      · exact Run.related_pure rfl
      · refine (alike_perform o _ _).bind fun v v' hv => ?_
        subst hv
        split
        · exact Run.related_pure rfl
        · exact DataObject.related_access (DataObject.alike_taint _) (ih _)

/-- Objects by scripts do not read the log, whatever their scripts are. -/
theorem ignoresLog : IgnoresLog Scripted where
  invoke o member := by
    show Run.Related _ _ (o.invoke member) (o.invoke member)
    rw [Scripted.invoke]
    refine (alike_modify _).bind fun _ _ _ => ?_
    split
    · exact alike_perform o member _
    · exact Run.related_fail _
  toOutput o := alike_outputWithin o.script.height o

end Scripted

end HybridTemplate
