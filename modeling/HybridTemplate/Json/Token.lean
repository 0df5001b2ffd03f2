import HybridTemplate.Json.Glyph
import HybridTemplate.Json.Numeral

/-!
# Tokens of JSON text

The lexical level: `Token.scan` cuts a text into tokens, reading it once from left to right, and `Token.chars` writes a
token. A `Scanner` is the state between two characters; `Scanner.feed` takes one character and `Scanner.finish` the end
of the text. Blanks between tokens are space, tab, line feed and carriage return; inside strings control characters are
refused. A string need not spell a text: see `Glyph.text?`.
-/

namespace HybridTemplate.Json

/-- A word of JSON text. -/
inductive Token where
  | openArray
  | closeArray
  | openObject
  | closeObject
  | comma
  | colon
  | null
  | bool (value : Bool)
  | number (numeral : Numeral)
  | string (glyphs : List Glyph)
deriving DecidableEq, Repr

namespace Token

/-- How a token is written. -/
def chars : Token → List Char
  | openArray => ['[']
  | closeArray => [']']
  | openObject => ['{']
  | closeObject => ['}']
  | comma => [',']
  | colon => [':']
  | null => ['n', 'u', 'l', 'l']
  | bool true => ['t', 'r', 'u', 'e']
  | bool false => ['f', 'a', 'l', 's', 'e']
  | number n => n.chars
  | string glyphs => '"' :: glyphs.flatMap Glyph.chars ++ ['"']

/-- The tokens of one character. -/
def ofChar? : Char → Option Token
  | '[' => some openArray
  | ']' => some closeArray
  | '{' => some openObject
  | '}' => some closeObject
  | ',' => some comma
  | ':' => some colon
  | _ => none

/-- The tokens that are words of letters. -/
def ofWord? (letters : List Char) : Option Token :=
  if letters = ['n', 'u', 'l', 'l'] then some null
  else if letters = ['t', 'r', 'u', 'e'] then some (bool true)
  else if letters = ['f', 'a', 'l', 's', 'e'] then some (bool false)
  else none

end Token

/-- Where the scan stands; what it has met is kept latest first. -/
inductive Mode where
  | between
  | word (met : List Char)
  | numeral (met : List Char)
  | string (met : List Glyph)
  /-- Behind a backslash in a string. -/
  | escape (met : List Glyph)
  /-- Behind `\u` in a string, with the hexadecimal digits met so far. -/
  | unit (met : List Glyph) (digits : List Nat)
deriving Repr

/-- The tokens read so far, latest first, and where the scan stands. -/
structure Scanner where
  tokens : List Token
  mode : Mode
deriving Repr

namespace Scanner

/-- The space between tokens. -/
def isSpace (c : Char) : Bool :=
  c == ' ' || c == '\t' || c == '\n' || c == '\r'

/-- The value of a hexadecimal digit. -/
def hexValue? (c : Char) : Option Nat :=
  if c.isDigit then some (c.toNat - '0'.toNat)
  else if 'a' ≤ c ∧ c ≤ 'f' then some (c.toNat - 'a'.toNat + 10)
  else if 'A' ≤ c ∧ c ≤ 'F' then some (c.toNat - 'A'.toNat + 10)
  else none

/-- The character that an escape of one letter stands for. -/
def escaped? : Char → Option Char
  | '"' => some '"'
  | '\\' => some '\\'
  | '/' => some '/'
  | 'b' => some '\x08'
  | 't' => some '\t'
  | 'n' => some '\n'
  | 'f' => some '\x0c'
  | 'r' => some '\r'
  | _ => none

/-- Takes a character with which a token or a space begins. -/
def begin? (tokens : List Token) (c : Char) : Option Scanner :=
  if isSpace c then some ⟨tokens, .between⟩
  else if c = '"' then some ⟨tokens, .string []⟩
  else if c.isDigit ∨ c = '-' then some ⟨tokens, .numeral [c]⟩
  else if c.isAlpha then some ⟨tokens, .word [c]⟩
  else (Token.ofChar? c).map fun t => ⟨t :: tokens, .between⟩

/-- Ends the token that is being read, which nothing but the next character or the end of the text does. -/
def close? (s : Scanner) : Option (List Token) :=
  match s.mode with
  | .between => some s.tokens
  | .word met => (Token.ofWord? met.reverse).map (· :: s.tokens)
  | .numeral met => (Numeral.ofChars? met.reverse).map (.number · :: s.tokens)
  | .string _ | .escape _ | .unit _ _ => none

/-- Takes the next character. -/
def feed? (s : Scanner) (c : Char) : Option Scanner :=
  match s.mode with
  | .between => begin? s.tokens c
  | .word met => if c.isAlpha then some ⟨s.tokens, .word (c :: met)⟩ else s.close?.bind (begin? · c)
  | .numeral met =>
    if Numeral.isNumeralChar c then some ⟨s.tokens, .numeral (c :: met)⟩ else s.close?.bind (begin? · c)
  | .string met =>
    if c = '"' then some ⟨.string met.reverse :: s.tokens, .between⟩
    else if c = '\\' then some ⟨s.tokens, .escape met⟩
    else if c.toNat < 0x20 then none
    else some ⟨s.tokens, .string (.char c :: met)⟩
  | .escape met =>
    if c = 'u' then some ⟨s.tokens, .unit met []⟩
    else (escaped? c).map fun c => ⟨s.tokens, .string (.char c :: met)⟩
  | .unit met digits =>
    (hexValue? c).map fun d =>
      match digits with
      | [d₃, d₂, d₁] => ⟨s.tokens, .string (Glyph.ofUnit (4096 * d₁ + 256 * d₂ + 16 * d₃ + d) :: met)⟩
      | _ => ⟨s.tokens, .unit met (d :: digits)⟩

end Scanner

/-- The tokens of a text. -/
def Token.scan? (cs : List Char) : Option (List Token) :=
  ((cs.foldlM Scanner.feed? ⟨[], .between⟩).bind Scanner.close?).map List.reverse

end HybridTemplate.Json
