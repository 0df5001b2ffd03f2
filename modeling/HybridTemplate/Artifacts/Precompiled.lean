import HybridTemplate.Artifacts.Basic
import HybridTemplate.Template.Basic

/-!
# Precompiled templates

A `Precompiled` template is the output of a precompilation: a hybrid source, in which text and the directives of dynamic
inclusions stand side by side, and the artifacts that these directives need.
-/

namespace HybridTemplate

/-- A hybrid source and the artifacts of the inclusions left in it. -/
structure Precompiled where
  source : String := ""
  artifacts : Artifacts := {}
deriving DecidableEq, Inhabited

namespace Precompiled

/-- The template of the hybrid source. -/
def parse (p : Precompiled) : Except ParseError Template :=
  Template.parse p.source

/-- The precompiled template without the texts of its inclusions. -/
def withoutResults (p : Precompiled) : Precompiled :=
  { p with artifacts := p.artifacts.withoutResults }

end Precompiled

end HybridTemplate
