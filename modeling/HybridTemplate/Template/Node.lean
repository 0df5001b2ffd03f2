import HybridTemplate.Template.Error
import HybridTemplate.Text.Blank
import HybridTemplate.Text.Utf8

/-!
# Nodes of a template

What the pieces of a template source mean:

* `Variable` — a path of names such as `user.address.city`, read from the body of an output by `Variable.ofMarkup?`;
* `Inclusion` — the tag that includes another template, such as `include 'header'`, read by `Inclusion.ofMarkup?` and
  written by `Inclusion.markup` just as it was read;
* `Node` — a text, an output or an inclusion; `Node.ofPiece` reads one piece and `Node.ofPieces` all of them, from left
  to right, with the first fault as the answer if there is one.

`Node.emit` writes a node as template source.
-/

namespace HybridTemplate

open Text

/-! ## Variables -/

/-- A path of names: a variable in scope and the members looked up in it, one after the other. -/
structure Variable where
  name : String
  members : List String
deriving DecidableEq, Repr

namespace Variable

/-- Names are made of ASCII letters and digits and of `_`, `-` and `?`. -/
def isNameChar (c : Char) : Bool :=
  c.isAlphanum || c == '_' || c == '-' || c == '?'

/-- A name is not empty. -/
def isName (cs : List Char) : Bool :=
  !cs.isEmpty && cs.all isNameChar

/-- The path that a trimmed markup writes with dots between its names. -/
def ofMarkup? (body : List Char) : Option Variable :=
  match body.splitOn '.' with
  | [] => none
  | name :: members =>
    if (name :: members).all isName then some ⟨String.ofList name, members.map String.ofList⟩ else none

/-- The path with dots between its names. -/
def path (v : Variable) : List Char :=
  ['.'].intercalate ((v.name :: v.members).map String.toList)

end Variable

/-! ## Inclusions -/

/-- A tag that includes the template named `key`: the word `include`, blanks, and the name in quotes. -/
structure Inclusion where
  /-- The blanks between the word and the quoted name. -/
  gap : String
  /-- The quote on both sides of the name. -/
  quote : Char
  /-- The name of the included template. -/
  key : String
deriving DecidableEq, Repr

namespace Inclusion

/-- The word that starts an inclusion. -/
def word : List Char := ['i', 'n', 'c', 'l', 'u', 'd', 'e']

/-- A name is quoted on both sides by an apostrophe or by a quotation mark. -/
def isQuote (c : Char) : Bool :=
  c == '\'' || c == '"'

/-- The quote and the name in it; the name is not empty and does not hold its quote. -/
def unquote? : List Char → Option (Char × List Char)
  | [] => none
  | quote :: rest =>
    let key := rest.dropLast
    if isQuote quote && rest.getLast? == some quote && !key.isEmpty && !key.contains quote then some (quote, key)
    else none

/-- The inclusion that a trimmed markup writes, which starts with the word `include`. -/
def ofMarkup? (body : List Char) : Option Inclusion :=
  let rest := body.drop word.length
  (unquote? (trim rest)).map fun (quote, key) => ⟨String.ofList (rest.takeWhile isBlank), quote, String.ofList key⟩

/-- The inclusion as the body of a tag. -/
def markup (i : Inclusion) : List Char :=
  word ++ i.gap.toList ++ i.quote :: i.key.toList ++ [i.quote]

/-- The inclusion as template source. -/
def directive (i : Inclusion) : String :=
  String.ofList (Delimiter.tag.opening ++ ' ' :: i.markup ++ ' ' :: Delimiter.tag.closing)

end Inclusion

/-! ## Nodes -/

/-- A part of a template. -/
inductive Node where
  | text (content : String)
  | output (var : Variable)
  | inclusion (tag : Inclusion)
deriving DecidableEq, Repr

namespace Node

/-- The node that the body of a markup writes. -/
def ofMarkup (d : Delimiter) (body : List Char) : Except ParseError Node :=
  let body := trim body
  match d with
  | .output =>
    match Variable.ofMarkup? body with
    | some v => .ok (output v)
    | none => .error (.invalidVariable (String.ofList body))
  | .tag =>
    if firstWord body = Inclusion.word then
      match Inclusion.ofMarkup? body with
      | some i => .ok (inclusion i)
      | none => .error (.invalidInclusion (String.ofList body))
    else .error (.unknownTag (String.ofList (firstWord body)))

/-- The node that a piece writes which starts `offset` bytes into the source. -/
def ofPiece (offset : Nat) : Piece → Except ParseError Node
  | .text content => .ok (text (String.ofList content))
  | .markup d body => ofMarkup d body
  | .unclosed d _ => .error (.unclosed d offset)

/-- The nodes that pieces write of which the first starts `offset` bytes into the source. -/
def ofPieces (offset : Nat) : List Piece → Except ParseError (List Node)
  | [] => .ok []
  | p :: ps =>
    match ofPiece offset p with
    | .error e => .error e
    | .ok n =>
      match ofPieces (offset + utf8Length p.source) ps with
      | .error e => .error e
      | .ok ns => .ok (n :: ns)

/-- A node as template source. -/
def emit : Node → List Char
  | text content => content.toList
  | output v => Delimiter.output.opening ++ ' ' :: v.path ++ ' ' :: Delimiter.output.closing
  | inclusion i => i.directive.toList

end Node

end HybridTemplate
