import HybridTemplate.Options
import HybridTemplate.Persist.Record

/-!
# Render options in JSON

Options are a record with the fields `caching`, `policy` and `max_include_depth`; absent fields have their defaults. A
policy is named by a text, or by an object whose only field has this name and the value null.
-/

namespace HybridTemplate

open Json (Document Glyph Numeral)

namespace TaintPolicy

/-- The policy of a name. -/
def ofName? (name : String) : Option TaintPolicy :=
  if name = propagating.name then some propagating
  else if name = localOnly.name then some localOnly
  else none

theorem ofName?_name (p : TaintPolicy) : ofName? p.name = some p := by
  cases p <;> decide

/-- The policy that a document names. -/
def ofDocument? : Document → Option TaintPolicy
  | .string s => (Glyph.string? s).bind ofName?
  | .object [(name, .null)] => (Glyph.string? name).bind ofName?
  | _ => none

end TaintPolicy

namespace RenderOptions

/-- The fields of render options. -/
def fieldNames : List String := ["caching", "policy", "max_include_depth"]

/-- The options that a document holds. -/
def ofDocument? (d : Document) : Option RenderOptions := do
  match ← Record.slots? fieldNames d with
  | [caching, policy, depth] =>
    let defaults : RenderOptions := {}
    let caching ← Record.optional Record.bool? defaults.caching caching
    let policy ← Record.optional TaintPolicy.ofDocument? defaults.policy policy
    let depth ← Record.optional Record.count? defaults.maxIncludeDepth depth
    return ⟨caching, policy, depth⟩
  | _ => none

/-- The options that a text holds. -/
def read? (text : String) : Option RenderOptions :=
  (Document.read? text).bind ofDocument?

/-- The options as a document. -/
def document (o : RenderOptions) : Document :=
  Record.document
    [("caching", .bool o.caching), ("policy", Record.ofText o.policy.name),
      ("max_include_depth", .number (Numeral.ofInt o.maxIncludeDepth))]

/-- The options as text. -/
def write (o : RenderOptions) : String :=
  o.document.write

end RenderOptions

end HybridTemplate
