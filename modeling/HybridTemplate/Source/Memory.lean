import HybridTemplate.Names.NameMap
import HybridTemplate.Source.Basic

/-!
# Sources held in memory

* `MemorySource` — a map from names to template sources that can grow, with the reads made so far; its answers are those
  of the stable source of the map (`read_toSource`);
* `Source.ofSequence` — a source that is not stable: each name has a list of answers, given one read after the other.
-/

namespace HybridTemplate

/-- Template sources by name, with the reads made so far. -/
structure MemorySource where
  templates : NameMap String := ∅
  /-- The names read so far, latest first. -/
  reads : List String := []

namespace MemorySource

/-- Puts a template in place of the one with its name. -/
def insert (m : MemorySource) (name text : String) : MemorySource :=
  { m with templates := m.templates.insert name text }

/-- The same answers as a source for renders. -/
def toSource (m : MemorySource) : Source :=
  { Source.ofLookup m.templates.get? with reads := m.reads }

/-- Reads a name. -/
def read (m : MemorySource) (name : String) : Except SourceError String × MemorySource :=
  let (answer, source) := m.toSource.read name
  (answer, { m with reads := source.reads })

/-- How often a name has been read, failed reads included. -/
def readCount (m : MemorySource) (name : String) : Nat :=
  m.toSource.readCount name

theorem read_toSource (m : MemorySource) (name : String) :
    (m.toSource.read name).1 = (m.read name).1 ∧ (m.toSource.read name).2 = (m.read name).2.toSource :=
  ⟨rfl, rfl⟩

end MemorySource

namespace Source

/-- The source of a map of templates. -/
def ofTemplates (templates : NameMap String) : Source :=
  ofLookup templates.get?

/-- The source whose `n`-th answer for a name is the `n`-th of its list, and the last one from there on. An entry
without a text, and a name without a list, is not found. -/
def ofSequence (answers : NameMap (List (Option String))) : Source :=
  { answer := fun earlier name =>
      let texts := (answers.get? name).getD []
      match texts[min (earlier.count name) (texts.length - 1)]? with
      | some (some text) => .ok text
      | _ => .error (.notFound name) }

theorem stable_ofTemplates (templates : NameMap String) : (ofTemplates templates).Stable :=
  stable_ofLookup _

end Source

end HybridTemplate
