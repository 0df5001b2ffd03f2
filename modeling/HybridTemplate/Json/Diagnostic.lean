import HybridTemplate.Json.Basic
import HybridTemplate.Text.Visible

/-!
# JSON values spelled out

`Json.describe` writes a value with the name of every constructor, as it is shown to a reader who debugs a template.
Strings stand in quotes, with quotes, backslashes and every character that is not visible escaped.
-/

namespace HybridTemplate.Json

/-- The escape of a character by its code point. -/
def codeEscape (c : Char) : List Char :=
  ['\\', 'u', '{'] ++ Nat.toDigits 16 c.toNat ++ ['}']

/-- A character between the quotes of a description. -/
def describeChar (c : Char) : List Char :=
  if c = '"' then ['\\', '"']
  else if c = '\\' then ['\\', '\\']
  else if c = '\t' then ['\\', 't']
  else if c = '\n' then ['\\', 'n']
  else if c = '\r' then ['\\', 'r']
  else if c.toNat = 0 then ['\\', '0']
  else if Text.isVisible c then [c]
  else codeEscape c

/-- A string in quotes. -/
def describeString (s : String) : String :=
  String.ofList ('"' :: s.toList.flatMap describeChar ++ ['"'])

mutual

/-- A value with the names of its constructors. -/
def describeValue : Json → String
  | null => "Null"
  | bool b => "Bool(" ++ (if b then "true" else "false") ++ ")"
  | number n => "Number(" ++ n.text ++ ")"
  | string s => "String(" ++ describeString s ++ ")"
  | array items => "Array [" ++ ", ".intercalate (describeItems items) ++ "]"
  | object fields => "Object \x7b" ++ ", ".intercalate (describeFields fields) ++ "\x7d"

/-- The items of an array. -/
def describeItems : List Json → List String
  | [] => []
  | v :: vs => v.describeValue :: describeItems vs

/-- The fields of an object, each with its name. -/
def describeFields : List (String × Json) → List String
  | [] => []
  | (name, v) :: fields => (describeString name ++ ": " ++ v.describeValue) :: describeFields fields

end

/-- A value spelled out. -/
def describe (v : Json) : String :=
  "Json(" ++ v.describeValue ++ ")"

end HybridTemplate.Json
