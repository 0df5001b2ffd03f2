import HybridTemplate.Names.NameMap
import HybridTemplate.Source.Basic

/-!
# Artifacts of a precompilation

What a precompilation keeps of the templates that stay dynamic: their sources, and the text that they were rendered to.
`Artifacts.read` answers with the text if there is one, and with the source otherwise; `Artifacts.toSource` is the
source for renders that answers this way, and it is stable.
-/

namespace HybridTemplate

/-- Sources and rendered texts of templates by name. -/
@[ext] structure Artifacts where
  /-- The sources of dynamic templates and of the templates inlined beneath them. -/
  templates : NameMap String := ∅
  /-- The texts that dynamic templates were rendered to. -/
  renderedResults : NameMap String := ∅
deriving DecidableEq, Inhabited

namespace Artifacts

/-- Puts a source in place of the one with its name. -/
def insertTemplate (a : Artifacts) (name text : String) : Artifacts :=
  { a with templates := a.templates.insert name text }

/-- Puts a rendered text in place of the one with its name. -/
def insertResult (a : Artifacts) (name text : String) : Artifacts :=
  { a with renderedResults := a.renderedResults.insert name text }

/-- The sources alone. -/
def withoutResults (a : Artifacts) : Artifacts :=
  { a with renderedResults := ∅ }

/-- Whether nothing is kept. -/
def isEmpty (a : Artifacts) : Bool :=
  a.templates.isEmpty && a.renderedResults.isEmpty

/-- The rendered text under a name, or else the source. -/
def get? (a : Artifacts) (name : String) : Option String :=
  (a.renderedResults.get? name).or (a.templates.get? name)

/-- The artifacts as a source for renders. -/
def toSource (a : Artifacts) : Source :=
  Source.ofLookup a.get?

/-- The answer to a read of a name. -/
def read (a : Artifacts) (name : String) : Except SourceError String :=
  (a.toSource.read name).1

theorem stable_toSource (a : Artifacts) : a.toSource.Stable :=
  Source.stable_ofLookup _

@[simp] theorem get?_withoutResults (a : Artifacts) (name : String) :
    a.withoutResults.get? name = a.templates.get? name := by
  simp [get?, withoutResults, EmptyCollection.emptyCollection]

end Artifacts

end HybridTemplate
