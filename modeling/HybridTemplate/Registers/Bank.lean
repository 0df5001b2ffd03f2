import HybridTemplate.Registers.Basic

/-!
# Shared registers

Data objects and contexts share registers: each holds a `Registers.Handle`, and the `Bank` has the registers of every
handle. Two handles are equal if they name the same registers. Registers that nobody has changed are the default ones.

`get_modify_self` and `get_modify_of_ne` say what a change does.
-/

namespace HybridTemplate

/-- A name for registers that are shared. -/
structure Registers.Handle where
  index : Nat
deriving DecidableEq, Repr

/-- The registers of all handles. -/
structure Bank where
  /-- The registers of the handles that have been given out, in order. -/
  cells : List Registers := []
deriving DecidableEq, Inhabited

namespace Bank

open Registers (Handle)

/-- The registers of a handle. -/
def get (b : Bank) (h : Handle) : Registers :=
  b.cells.getD h.index {}

/-- Changes one cell; cells that are not there yet hold default registers. -/
def modifyCell (g : Registers → Registers) : Nat → List Registers → List Registers
  | 0, [] => [g {}]
  | 0, r :: rs => g r :: rs
  | i + 1, [] => {} :: modifyCell g i []
  | i + 1, r :: rs => r :: modifyCell g i rs

/-- Changes the registers of a handle. -/
def modify (b : Bank) (h : Handle) (g : Registers → Registers) : Bank :=
  ⟨modifyCell g h.index b.cells⟩

/-- Gives out a new handle for registers. -/
def add (b : Bank) (r : Registers) : Handle × Bank :=
  (⟨b.cells.length⟩, ⟨b.cells ++ [r]⟩)

theorem getD_modifyCell (g : Registers → Registers) (i j : Nat) (rs : List Registers) :
    (modifyCell g i rs).getD j {} = if j = i then g (rs.getD i {}) else rs.getD j {} := by
  induction i generalizing j rs with
  | zero => cases rs <;> cases j <;> simp [modifyCell]
  | succ i ih =>
    cases rs with
    | nil =>
      cases j with
      | zero => simp [modifyCell]
      | succ j => simpa [modifyCell] using ih j []
    | cons r rs =>
      cases j with
      | zero => simp [modifyCell]
      | succ j => simpa [modifyCell] using ih j rs

@[simp] theorem get_modify_self (b : Bank) (h : Handle) (g : Registers → Registers) :
    (b.modify h g).get h = g (b.get h) := by
  simp only [get, modify, getD_modifyCell, if_true]

theorem get_modify_of_ne (b : Bank) {h k : Handle} (g : Registers → Registers) (hk : k ≠ h) :
    (b.modify h g).get k = b.get k := by
  have : k.index ≠ h.index := fun e => hk (by cases k; cases h; cases e; rfl)
  simp only [get, modify, getD_modifyCell, if_neg this]

@[simp] theorem get_add_self (b : Bank) (r : Registers) : (b.add r).2.get (b.add r).1 = r := by
  simp [get, add]

end Bank

end HybridTemplate
