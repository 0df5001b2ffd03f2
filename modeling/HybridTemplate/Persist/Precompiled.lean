import HybridTemplate.Artifacts.Precompiled
import HybridTemplate.Persist.Artifacts

/-!
# Precompiled templates in JSON

A precompiled template is a record with the fields `source` and `artifacts`, which must both be there.
-/

namespace HybridTemplate

open Json (Document)

namespace Precompiled

/-- The fields of a precompiled template. -/
def fieldNames : List String := ["source", "artifacts"]

/-- The precompiled template that a document holds. -/
def ofDocument? (d : Document) : Option Precompiled := do
  match ← Record.slots? fieldNames d with
  | [source, artifacts] =>
    let source ← Record.required Record.text? source
    let artifacts ← Record.required Artifacts.ofDocument? artifacts
    return { source, artifacts }
  | _ => none

/-- The precompiled template that a text holds. -/
def read? (text : String) : Option Precompiled :=
  (Document.read? text).bind ofDocument?

/-- The precompiled template as a document. -/
def document (p : Precompiled) : Document :=
  Record.document [("source", Record.ofText p.source), ("artifacts", p.artifacts.document)]

/-- The precompiled template as text. -/
def write (p : Precompiled) : String :=
  p.document.write

end Precompiled

end HybridTemplate
