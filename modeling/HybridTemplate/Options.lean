import HybridTemplate.Stack.Basic

/-!
# Options of a render

`RenderOptions` chooses between plain and caching renders, the policy that marks inclusions, and the limit on the depth
of inclusions.
-/

namespace HybridTemplate

/-- How a context renders. -/
structure RenderOptions where
  /-- Whether inclusions are tracked, so that texts can be frozen. -/
  caching : Bool := false
  policy : TaintPolicy := .propagating
  /-- The greatest number of inclusions inside one another. -/
  maxIncludeDepth : Nat := 100
deriving DecidableEq, Repr, Inhabited

end HybridTemplate
