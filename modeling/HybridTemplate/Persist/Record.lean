import HybridTemplate.Json.Basic
import HybridTemplate.Names.NameMap

/-!
# Records in JSON

Structures with named fields are kept as JSON.

* `Record.slots?` — the fields of a document in the order of a list of names. An object may have them in any order and
  may have other fields too, which are ignored, whatever they hold; no known field may be repeated. An array gives the
  first fields in order;
* `Record.bool?`, `Record.text?`, `Record.count?`, `Record.texts?` — how single fields are read;
* `Record.document`, `Record.ofTexts` — how records and maps of texts are written.
-/

namespace HybridTemplate

open Json (Document Glyph Numeral Number)

namespace Record

/-! ## Reading -/

/-- The names of the fields of an object, if each of them spells a text. -/
def names? (fields : List (List Glyph × Document)) : Option (List (String × Document)) :=
  fields.mapM fun (name, d) => (Glyph.string? name).map (·, d)

/-- The field of a name: absent, or there once. -/
def field? (fields : List (String × Document)) (name : String) : Option (Option Document) :=
  match fields.filter (·.1 == name) with
  | [] => some none
  | [(_, d)] => some (some d)
  | _ => none

/-- The fields `known` of a document, in this order; a field may be absent. -/
def slots? (known : List String) : Document → Option (List (Option Document))
  | .object fields => (names? fields).bind fun fields => known.mapM (field? fields)
  | .array items =>
    if items.length ≤ known.length then
      some (items.map some ++ List.replicate (known.length - items.length) none)
    else none
  | _ => none

/-- A truth value. -/
def bool? : Document → Option Bool
  | .bool b => some b
  | _ => none

/-- A text. -/
def text? : Document → Option String
  | .string s => Glyph.string? s
  | _ => none

/-- A natural number of at most 64 bits, without sign, point or exponent. -/
def count? : Document → Option Nat
  | .number n =>
    let magnitude := Numeral.natValue n.whole
    if n.isInteger && !n.negative && magnitude ≤ Number.maxWord then some magnitude else none
  | _ => none

/-- Texts by name; of a repeated name the last text counts. -/
def texts? : Document → Option (NameMap String)
  | .object fields => do
    let fields ← names? fields
    let entries ← fields.mapM fun (name, d) => (text? d).map (name, ·)
    return NameMap.ofList entries
  | _ => none

/-- Reads a field that may be absent. -/
def optional {α : Type} (read? : Document → Option α) (fallback : α) : Option Document → Option α
  | none => some fallback
  | some d => read? d

/-- Reads a field that must be there. -/
def required {α : Type} (read? : Document → Option α) (slot : Option Document) : Option α :=
  slot.bind read?

/-! ## Writing -/

/-- A record with its fields in this order. -/
def document (fields : List (String × Document)) : Document :=
  .object (fields.map fun (name, d) => (Glyph.ofString name, d))

/-- A text. -/
def ofText (s : String) : Document :=
  .string (Glyph.ofString s)

/-- Texts by name, in ascending order of the names. -/
def ofTexts (m : NameMap String) : Document :=
  document (m.entries.map fun (name, s) => (name, ofText s))

end Record

end HybridTemplate
