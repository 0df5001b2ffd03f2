/-!
# Spelling of JSON strings

Between its quotes a JSON string spells characters, some of them escaped. An escape `\uXXXX` names one unit of UTF-16,
so it may name half of a surrogate pair.

* `Glyph` — a character, or half of a pair;
* `Glyph.ofUnit` — what `\uXXXX` spells, and `Glyph.chars` — how a glyph is written;
* `Glyph.text?` — the text that glyphs spell: the halves of pairs must come in pairs.
-/

namespace HybridTemplate.Json

/-- One element of the spelling of a string. -/
inductive Glyph where
  | char (c : Char)
  /-- The first half of a surrogate pair, with its ten bits. -/
  | lead (bits : Fin 1024)
  /-- The second half of a surrogate pair, with its ten bits. -/
  | trail (bits : Fin 1024)
deriving DecidableEq, Repr

namespace Glyph

/-- What the escape of a 16-bit unit spells. -/
def ofUnit (n : Nat) : Glyph :=
  if n / 1024 = 54 then lead (Fin.ofNat 1024 n)
  else if n / 1024 = 55 then trail (Fin.ofNat 1024 n)
  else char (Char.ofNat n)

/-- The digit of a value below sixteen, in lower case. -/
def hexDigit (n : Nat) : Char :=
  Nat.digitChar (n % 16)

/-- The escape `\uXXXX` of a 16-bit unit. -/
def unitEscape (n : Nat) : List Char :=
  ['\\', 'u', hexDigit (n / 4096), hexDigit (n / 256), hexDigit (n / 16), hexDigit n]

/-- How a character is written: quotes, backslashes and control characters are escaped, all else stands for itself. -/
def charEscape (c : Char) : List Char :=
  if c = '"' then ['\\', '"']
  else if c = '\\' then ['\\', '\\']
  else if c.toNat = 0x08 then ['\\', 'b']
  else if c.toNat = 0x09 then ['\\', 't']
  else if c.toNat = 0x0A then ['\\', 'n']
  else if c.toNat = 0x0C then ['\\', 'f']
  else if c.toNat = 0x0D then ['\\', 'r']
  else if c.toNat < 0x20 then unitEscape c.toNat
  else [c]

/-- How a glyph is written. -/
def chars : Glyph → List Char
  | char c => charEscape c
  | lead bits => unitEscape (0xD800 + bits)
  | trail bits => unitEscape (0xDC00 + bits)

/-- The character of a surrogate pair. -/
def pair (hi lo : Fin 1024) : Char :=
  Char.ofNat (0x10000 + 1024 * hi + lo)

/-- The text that glyphs spell, if every half of a surrogate pair has its other half beside it. -/
def text? : List Glyph → Option (List Char)
  | [] => some []
  | char c :: rest => (text? rest).map (c :: ·)
  | lead hi :: trail lo :: rest => (text? rest).map (pair hi lo :: ·)
  | lead _ :: _ => none
  | trail _ :: _ => none

/-- The glyphs of a text. -/
def ofString (s : String) : List Glyph :=
  s.toList.map char

/-- The string that glyphs spell. -/
def string? (glyphs : List Glyph) : Option String :=
  (text? glyphs).map String.ofList

theorem text?_map_char (cs : List Char) : text? (cs.map char) = some cs := by
  induction cs with
  | nil => rfl
  | cons c cs ih => simp [text?, ih]

/-- Every string is spelled by its glyphs. -/
@[simp] theorem string?_ofString (s : String) : string? (ofString s) = some s := by
  simp [string?, ofString, text?_map_char]

end Glyph

end HybridTemplate.Json
