import HybridTemplate.Json.Basic

/-!
# JSON values in templates

What a template sees of a JSON value:

* `Json.member` — one step of a path: the field of an object, an item of an array by its index, and the helpers `size`,
  `first` and `last`; whatever is not there is null;
* `Json.render` — the text of a value in the output: null is nothing, a string is itself, the items of an array follow
  one another, and an object is written as JSON.
-/

namespace HybridTemplate.Json

/-- The index that a key of digits writes; a plus sign may stand before the digits. -/
def index? (key : String) : Option Nat :=
  let ds := match key.toList with
    | '+' :: ds => ds
    | ds => ds
  if !ds.isEmpty && ds.all Char.isDigit then some (Numeral.natValue ds) else none

/-- What a key finds in an array. -/
def item (items : List Json) (key : String) : Json :=
  if key = "size" then ofNat items.length
  else if key = "first" then items.head?.getD null
  else if key = "last" then items.getLast?.getD null
  else ((index? key).bind fun i => items[i]?).getD null

/-- What a key finds in an object: its own fields go before the helper `size`. -/
def field (fields : List (String × Json)) (key : String) : Json :=
  match Entries.lookup key fields with
  | some v => v
  | none => if key = "size" then ofNat fields.length else null

/-- One step of a path. -/
def member (v : Json) (key : String) : Json :=
  match v with
  | object fields => field fields key
  | array items => item items key
  | string s => if key = "size" then ofNat s.length else null
  | _ => null

mutual

/-- The text of a value in the output. -/
def render : Json → String
  | null => ""
  | bool b => if b then "true" else "false"
  | number n => n.text
  | string s => s
  | array items => renderItems items
  | object fields => (object fields).write

/-- The texts of the items of an array, one after the other. -/
def renderItems : List Json → String
  | [] => ""
  | v :: vs => v.render ++ renderItems vs

end

end HybridTemplate.Json
