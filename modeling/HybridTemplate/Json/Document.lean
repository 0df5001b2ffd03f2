import HybridTemplate.Json.Token

/-!
# JSON documents

A `Document` is JSON text up to its spacing: numbers as they are written, strings as they are spelled, and the fields of
an object in the order of the text, repeated names included.

* `Document.read?` reads a text strictly and `Document.write` writes one without any space;
* reading goes through the tokens with a stack of open arrays and objects: `Reader.take?` takes one token;
* `Document.depth` is the greatest number of arrays and objects around one point of the text.
-/

namespace HybridTemplate.Json

/-- JSON text up to its spacing. -/
inductive Document where
  | null
  | bool (value : Bool)
  | number (numeral : Numeral)
  | string (glyphs : List Glyph)
  | array (items : List Document)
  | object (fields : List (List Glyph × Document))
deriving Repr, Inhabited

namespace Document

/-! ## Writing -/

mutual

/-- The tokens that write a document. -/
def tokens : Document → List Token
  | null => [.null]
  | bool b => [.bool b]
  | number n => [.number n]
  | string s => [.string s]
  | array items => .openArray :: itemTokens items
  | object fields => .openObject :: fieldTokens fields

/-- The tokens of the items of an array with the bracket behind them. -/
def itemTokens : List Document → List Token
  | [] => [.closeArray]
  | [d] => d.tokens ++ [.closeArray]
  | d :: ds => d.tokens ++ .comma :: itemTokens ds

/-- The tokens of the fields of an object with the brace behind them. -/
def fieldTokens : List (List Glyph × Document) → List Token
  | [] => [.closeObject]
  | [(name, d)] => .string name :: .colon :: d.tokens ++ [.closeObject]
  | (name, d) :: fields => .string name :: .colon :: d.tokens ++ .comma :: fieldTokens fields

end

/-- The text of a document, without any space. -/
def write (d : Document) : String :=
  String.ofList (d.tokens.flatMap Token.chars)

/-! ## Depth -/

mutual

/-- The greatest number of arrays and objects around one point of the text. -/
def depth : Document → Nat
  | array items => 1 + itemDepth items
  | object fields => 1 + fieldDepth fields
  | _ => 0

/-- The greatest depth of an item. -/
def itemDepth : List Document → Nat
  | [] => 0
  | d :: ds => max d.depth (itemDepth ds)

/-- The greatest depth of a field. -/
def fieldDepth : List (List Glyph × Document) → Nat
  | [] => 0
  | (_, d) :: fields => max d.depth (fieldDepth fields)

end

end Document

/-! ## Reading -/

/-- An array or an object that is not closed yet; its parts are kept latest first. -/
inductive Unclosed where
  /-- An array, waiting for its next item. -/
  | items (items : List Document)
  /-- An object, waiting for the value of a field. -/
  | fields (fields : List (List Glyph × Document)) (name : List Glyph)

/-- What has been read of a text and what may come next. -/
inductive Reader where
  /-- A value comes next. -/
  | value (around : List Unclosed)
  /-- Behind `[`: a value or `]` comes next. -/
  | firstItem (around : List Unclosed)
  /-- Behind an item: a comma or `]` comes next. -/
  | afterItem (items : List Document) (around : List Unclosed)
  /-- Behind `{`: a name or `}` comes next. -/
  | firstField (around : List Unclosed)
  /-- Behind the comma between two fields: a name comes next. -/
  | nextField (fields : List (List Glyph × Document)) (around : List Unclosed)
  /-- Behind the name of a field: a colon comes next. -/
  | colon (fields : List (List Glyph × Document)) (name : List Glyph) (around : List Unclosed)
  /-- Behind a field: a comma or `}` comes next. -/
  | afterField (fields : List (List Glyph × Document)) (around : List Unclosed)
  /-- The text is complete: nothing may come. -/
  | done (document : Document)

namespace Reader

/-- Puts a complete value where the text has it. -/
def put (d : Document) : List Unclosed → Reader
  | [] => done d
  | .items items :: around => afterItem (d :: items) around
  | .fields fields name :: around => afterField ((name, d) :: fields) around

/-- Takes the first token of a value. -/
def start? (around : List Unclosed) : Token → Option Reader
  | .null => some (put .null around)
  | .bool b => some (put (.bool b) around)
  | .number n => some (put (.number n) around)
  | .string s => some (put (.string s) around)
  | .openArray => some (firstItem around)
  | .openObject => some (firstField around)
  | _ => none

/-- Takes the next token. -/
def take? : Reader → Token → Option Reader
  | value around, t => start? around t
  | firstItem around, .closeArray => some (put (.array []) around)
  | firstItem around, t => start? (.items [] :: around) t
  | afterItem items around, .comma => some (value (.items items :: around))
  | afterItem items around, .closeArray => some (put (.array items.reverse) around)
  | firstField around, .closeObject => some (put (.object []) around)
  | firstField around, .string name => some (colon [] name around)
  | nextField fields around, .string name => some (colon fields name around)
  | colon fields name around, .colon => some (value (.fields fields name :: around))
  | afterField fields around, .comma => some (nextField fields around)
  | afterField fields around, .closeObject => some (put (.object fields.reverse) around)
  | _, _ => none

/-- The document, if its text is complete. -/
def document? : Reader → Option Document
  | done d => some d
  | _ => none

end Reader

namespace Document

/-- The document that tokens write. -/
def ofTokens? (ts : List Token) : Option Document :=
  (ts.foldlM Reader.take? (.value [])).bind Reader.document?

/-- The document that a text writes. -/
def read? (text : String) : Option Document :=
  (Token.scan? text.toList).bind ofTokens?

end Document

end HybridTemplate.Json
