import HybridTemplate.Artifacts.Basic
import HybridTemplate.Options

/-!
# Registers of a render

What a render keeps track of: whether it is in caching mode, the stack of its inclusions, and the artifacts of the
inclusions that stay dynamic. The artifacts come into being with the first write (`Registers.mapStore`), so a render
that froze every inclusion leaves none.
-/

namespace HybridTemplate

/-- The bookkeeping of a render. -/
structure Registers where
  /-- Whether inclusions are tracked. -/
  caching : Bool := false
  /-- The inclusions in progress, with the policy that marks them. -/
  stack : FrameStack := { policy := .propagating }
  /-- The artifacts of inclusions that stay dynamic. -/
  store : Option Artifacts := none
deriving DecidableEq, Inhabited

namespace Registers

/-- The registers of a context with these options. -/
def ofOptions (o : RenderOptions) : Registers :=
  { caching := o.caching, stack := { policy := o.policy } }

/-- The policy that marks inclusions. -/
def policy (r : Registers) : TaintPolicy :=
  r.stack.policy

/-- The registers in or out of caching mode. -/
def setCaching (r : Registers) (caching : Bool) : Registers :=
  { r with caching }

/-- The registers with a change to the stack. -/
def mapStack (r : Registers) (g : FrameStack → FrameStack) : Registers :=
  { r with stack := g r.stack }

/-- The registers with a change to the artifacts, which come into being if need be. -/
def mapStore (r : Registers) (g : Artifacts → Artifacts) : Registers :=
  { r with store := some (g (r.store.getD {})) }

/-- The registers without their artifacts. -/
def dropStore (r : Registers) : Registers :=
  { r with store := none }

/-- The registers ahead of a fresh render: no inclusion in progress and no artifacts. -/
def reset (r : Registers) : Registers :=
  { r with stack := r.stack.cleared, store := none }

/-- Marks the inclusions in progress. -/
def markUncacheable (r : Registers) : Registers :=
  r.mapStack FrameStack.markUncacheable

/-- Whether the innermost inclusion is still cacheable. -/
def isCacheable (r : Registers) : Bool :=
  r.stack.isTopCacheable

/-- The number of inclusions in progress. -/
def depth (r : Registers) : Nat :=
  r.stack.depth

end Registers

end HybridTemplate
