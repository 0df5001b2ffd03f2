import HybridTemplate.Artifacts.Basic
import HybridTemplate.Persist.Record

/-!
# Artifacts in JSON

Artifacts are a record with the fields `templates`, which must be there, and `rendered_results`, which may be absent.
Both hold texts by name.
-/

namespace HybridTemplate

open Json (Document)

namespace Artifacts

/-- The fields of artifacts. -/
def fieldNames : List String := ["templates", "rendered_results"]

/-- The artifacts that a document holds. -/
def ofDocument? (d : Document) : Option Artifacts := do
  match ← Record.slots? fieldNames d with
  | [templates, results] =>
    let templates ← Record.required Record.texts? templates
    let results ← Record.optional Record.texts? ∅ results
    return ⟨templates, results⟩
  | _ => none

/-- The artifacts that a text holds. -/
def read? (text : String) : Option Artifacts :=
  (Document.read? text).bind ofDocument?

/-- The artifacts as a document. -/
def document (a : Artifacts) : Document :=
  Record.document
    [("templates", Record.ofTexts a.templates), ("rendered_results", Record.ofTexts a.renderedResults)]

/-- The artifacts as text. -/
def write (a : Artifacts) : String :=
  a.document.write

end Artifacts

end HybridTemplate
