import HybridTemplate.Json.Document
import HybridTemplate.Json.Number
import HybridTemplate.Names.Entries

/-!
# JSON values

A `Json` value is what a document says, without its spelling: the fields of an object stand in ascending order of their
names, and of a repeated name the last field counts.

* `Json.read?` reads a value from text with at most `Json.maxDepth` arrays and objects around one point;
* `Json.write` writes a value without spaces.
-/

namespace HybridTemplate

open Json (Document Glyph Number)

/-- A JSON value. -/
inductive Json where
  | null
  | bool (value : Bool)
  | number (value : Json.Number)
  | string (value : String)
  | array (items : List Json)
  /-- The fields in ascending order of their names. -/
  | object (fields : List (String × Json))
deriving Repr, Inhabited

namespace Json

/-- The object of fields in any order; of fields with one name the last counts. -/
def ofFields (fields : List (String × Json)) : Json :=
  object (fields.foldl (fun es f => Entries.put f.1 f.2 es) [])

/-- A count as a JSON number. -/
def ofNat (n : Nat) : Json :=
  number (.integer n)

/-! ## Reading -/

mutual

/-- The value that a document says: its numbers are in range and its strings spell texts. -/
def ofDocument? : Document → Option Json
  | .null => some null
  | .bool b => some (bool b)
  | .number n => (Number.ofNumeral? n).map number
  | .string s => (Glyph.string? s).map string
  | .array items => (itemsOfDocuments? items).map array
  | .object fields => (fieldsOfDocuments? fields).map ofFields

/-- The values of the items of an array. -/
def itemsOfDocuments? : List Document → Option (List Json)
  | [] => some []
  | d :: ds =>
    match ofDocument? d, itemsOfDocuments? ds with
    | some v, some vs => some (v :: vs)
    | _, _ => none

/-- The fields of an object, in the order of the document. -/
def fieldsOfDocuments? : List (List Glyph × Document) → Option (List (String × Json))
  | [] => some []
  | (name, d) :: fields =>
    match Glyph.string? name, ofDocument? d, fieldsOfDocuments? fields with
    | some name, some v, some vs => some ((name, v) :: vs)
    | _, _, _ => none

end

/-- The greatest depth of a text that is read as a value. -/
def maxDepth : Nat := 127

/-- The value that a text writes. -/
def read? (text : String) : Option Json :=
  match Document.read? text with
  | some d => if d.depth ≤ maxDepth then ofDocument? d else none
  | none => none

/-! ## Writing -/

mutual

/-- The document that says a value. -/
def document : Json → Document
  | null => .null
  | bool b => .bool b
  | number n => .number n.numeral
  | string s => .string (Glyph.ofString s)
  | array items => .array (itemDocuments items)
  | object fields => .object (fieldDocuments fields)

/-- The documents of the items of an array. -/
def itemDocuments : List Json → List Document
  | [] => []
  | v :: vs => v.document :: itemDocuments vs

/-- The documents of the fields of an object. -/
def fieldDocuments : List (String × Json) → List (List Glyph × Document)
  | [] => []
  | (name, v) :: fields => (Glyph.ofString name, v.document) :: fieldDocuments fields

end

/-- The text of a value, without any space. -/
def write (v : Json) : String :=
  v.document.write

end Json

end HybridTemplate
