import HybridTemplate.Object.Scripted
import HybridTemplate.Proofs.Confined

/-!
# What scripts do to registers

An object by a script works on the registers that it was told through the effects of its acts, and in no other way: to
make objects and to prepare them for a render leaves all registers alone. So the objects keep within each bound that
allows the effects (`Scripted.confined`).
-/

namespace HybridTemplate

open Registers (Handle)

namespace Scripted

variable {h : Handle} {S : Registers → Registers → Prop}

/-- The step leaves the registers alone. -/
def LeavesRegisters {α : Type} (x : StateM (Shared Heap) α) : Prop :=
  ∀ w, (x.run w).2.registers = w.registers

theorem LeavesRegisters.bind {α β : Type} {x : StateM (Shared Heap) α} {f : α → StateM (Shared Heap) β}
    (hx : LeavesRegisters x) (hf : ∀ a, LeavesRegisters (f a)) : LeavesRegisters (x >>= f) :=
  fun w => (hf _ _).trans (hx w)

theorem leavesRegisters_make (script : Script) : LeavesRegisters (make script) :=
  fun _ => rfl

theorem leavesRegisters_setRegisters (k : Handle) (o : DataObject Scripted) :
    LeavesRegisters (DataObject.setRegisters k o) := by
  induction o with
  | bare o =>
    have ho : LeavesRegisters (Exposable.setRegisters o k) := by
      show LeavesRegisters (o.setRegisters k)
      rw [Scripted.setRegisters]
      split <;> exact fun _ => rfl
    exact ho.bind fun _ _ => rfl
  | uncacheable o registers ih => exact ih.bind fun _ _ => rfl

theorem leavesRegisters_toRenderable (o : DataObject Scripted) : LeavesRegisters o.toRenderable := by
  induction o with
  | bare o =>
    show LeavesRegisters o.toRenderable
    rw [Scripted.toRenderable]
    refine LeavesRegisters.bind (fun _ => rfl) fun _ => ?_
    split
    · exact leavesRegisters_make _
    · exact fun _ => rfl
  | uncacheable o registers ih => exact ih.bind fun _ _ => rfl

theorem within_of_registers_eq (hS : Bound S) {α : Type} {x : ObjectRun Heap α}
    (hx : ∀ w, (x.run w).2.registers = w.registers) :
    Run.Within (Shared.registersAt h) S x := by
  intro w
  rw [Shared.registersAt, Shared.registersAt, hx]
  exact hS.refl _

variable (hS : Bound S) (he : ∀ (e : Effect) r, S r (e.apply r))

include hS he

theorem apply_effects (effects : List Effect) (r : Registers) :
    S r (effects.foldl Effect.apply r) := by
  induction effects generalizing r with
  | nil => exact hS.refl r
  | cons e effects ih => exact hS.trans (he e r) (ih (e.apply r))

/-- An act does nothing to registers but its effects. -/
theorem within_perform (o : Scripted) (member : String) (act : Act) :
    Run.Within (Shared.registersAt h) S (o.perform member act) := by
  obtain ⟨effects, answer⟩ := act
  rw [perform]
  have heffects : ∀ k, Run.Within (Shared.registersAt h) S
      (Run.modify fun w => w.modifyRegisters k (effects.foldl Effect.apply) : ObjectRun Heap Unit) := by
    intro k w
    rw [Run.modify_run, Shared.registersAt, Shared.registersAt, Shared.modifyRegisters]
    by_cases hk : h = k
    · subst hk
      rw [Bank.get_modify_self]
      exact apply_effects hS he effects _
    · rw [Bank.get_modify_of_ne _ _ hk]
      exact hS.refl _
  have halways : ∀ {α : Type} {x : StateM (Shared Heap) α}, LeavesRegisters x →
      Run.Within (Shared.registersAt h) S (always x) := fun hx => within_of_registers_eq hS hx
  have hpure : ∀ v, Run.Within (Shared.registersAt h) S (pure v : ObjectRun Heap (Value Scripted)) :=
    fun v => Run.within_pure hS v
  refine Run.Within.bind hS (within_of_registers_eq hS fun w => rfl) fun _ count _ _ => ?_
  extract_lets answering
  have hanswering : ∀ u, Run.Within (Shared.registersAt h) S (answering u) := by
    intro u
    simp only [answering]
    split
    · exact Run.within_fail hS _
    · exact Run.within_fail hS _
    · exact hpure _
    · split
      · exact hpure _
      · exact (within_of_registers_eq hS fun w => rfl).bind hS fun _ _ _ _ => hpure _
    · exact (halways (leavesRegisters_make _)).bind hS fun _ _ _ _ => hpure _
    · refine (halways ((leavesRegisters_make _).bind leavesRegisters_toRenderable)).bind hS fun _ o' _ _ => ?_
      split
      · exact hpure _
      · exact (halways (leavesRegisters_setRegisters _ o')).bind hS fun _ _ _ _ => hpure _
    · exact hpure _
  split
  · exact (heffects _).bind hS fun _ u _ _ => hanswering u
  · exact hanswering ()

theorem within_outputWithin (n : Nat) (o : Scripted) :
    Run.Within (Shared.registersAt h) S (outputWithin n o) := by
  induction n generalizing o with
  | zero => exact Run.within_pure hS _
  | succ n ih =>
    rw [outputWithin]
    split
    · exact Run.within_pure hS _
    · refine Run.Within.bind hS (within_of_registers_eq hS fun w => rfl) fun _ _ _ _ => ?_
      split
      · exact Run.within_pure hS _
      · refine (within_perform hS he o _ _).bind hS fun _ v _ _ => ?_
        split
        · exact Run.within_pure hS _
        · exact DataObject.within_access hS _ (ih _)

/-- Objects by scripts keep within a bound that allows the effects, whatever their scripts are. -/
theorem confined : Confined S h fun _ : Scripted => True where
  invoke o _ member := by
    show Run.Within _ _ (o.invoke member)
    rw [Scripted.invoke]
    refine Run.Within.bind hS (within_of_registers_eq hS fun w => rfl) fun _ _ _ _ => ?_
    split
    · exact within_perform hS he o member _
    · exact Run.within_fail hS _
  toOutput o _ := within_outputWithin hS he o.script.height o
  answer _ _ _ _ _ _ := trivial

end Scripted

end HybridTemplate
