/-!
# JSON numerals

A `Numeral` is a number as it is written: sign, whole digits, fraction digits and exponent. `Numeral.chars` writes it
and `Numeral.ofChars?` reads it strictly: the whole part is `0` or does not start with `0`, and a point or an exponent
mark is followed by digits. What number it stands for is decided in `Json.Number`.
-/

namespace HybridTemplate.Json

/-- A number as it is written. -/
structure Numeral where
  negative : Bool
  /-- The digits before the point. -/
  whole : List Char
  /-- The digits after the point; without digits there is no point. -/
  fraction : List Char
  /-- Whether the exponent is negative, and its digits. -/
  exponent : Option (Bool × List Char)
deriving DecidableEq, Repr

namespace Numeral

/-- The characters of a numeral; an exponent always has a sign. -/
def chars (n : Numeral) : List Char :=
  (if n.negative then ['-'] else []) ++ n.whole
    ++ (match n.fraction with | [] => [] | ds => '.' :: ds)
    ++ (match n.exponent with | none => [] | some (minus, ds) => 'e' :: (if minus then '-' else '+') :: ds)

/-- Whether the numeral has neither point nor exponent. -/
def isInteger (n : Numeral) : Bool :=
  n.fraction.isEmpty && n.exponent.isNone

/-- The characters that numerals are made of. -/
def isNumeralChar (c : Char) : Bool :=
  c.isDigit || c == '-' || c == '+' || c == '.' || c == 'e' || c == 'E'

/-- The leading digits of a text and the rest, if there is a digit. -/
def digits? (cs : List Char) : Option (List Char × List Char) :=
  match cs.takeWhile Char.isDigit with
  | [] => none
  | ds => some (ds, cs.dropWhile Char.isDigit)

/-- Reads the sign of a numeral. -/
def readSign : List Char → Bool × List Char
  | '-' :: rest => (true, rest)
  | cs => (false, cs)

/-- Reads the digits before the point. -/
def readWhole? (cs : List Char) : Option (List Char × List Char) :=
  match digits? cs with
  | some ('0' :: _ :: _, _) => none
  | r => r

/-- Reads the point and the digits behind it, if there is a point. -/
def readFraction? : List Char → Option (List Char × List Char)
  | '.' :: rest => digits? rest
  | cs => some ([], cs)

/-- Reads the sign and the digits of an exponent. -/
def readExponentDigits? : List Char → Option (Bool × List Char × List Char)
  | '+' :: rest => (digits? rest).map fun (ds, rest) => (false, ds, rest)
  | '-' :: rest => (digits? rest).map fun (ds, rest) => (true, ds, rest)
  | cs => (digits? cs).map fun (ds, rest) => (false, ds, rest)

/-- Reads the exponent, if there is one. -/
def readExponent? : List Char → Option (Option (Bool × List Char) × List Char)
  | [] => some (none, [])
  | c :: rest =>
    if c = 'e' ∨ c = 'E' then (readExponentDigits? rest).map fun (minus, ds, rest) => (some (minus, ds), rest)
    else some (none, c :: rest)

/-- The numeral that a text writes. -/
def ofChars? (cs : List Char) : Option Numeral := do
  let (negative, cs) := readSign cs
  let (whole, cs) ← readWhole? cs
  let (fraction, cs) ← readFraction? cs
  let (exponent, cs) ← readExponent? cs
  if cs.isEmpty then some ⟨negative, whole, fraction, exponent⟩ else none

/-- The value of a digit. -/
def digitValue (c : Char) : Nat :=
  c.toNat - '0'.toNat

/-- The number that digits write. -/
def natValue (ds : List Char) : Nat :=
  ds.foldl (fun n d => 10 * n + digitValue d) 0

/-- The numeral of an integer. -/
def ofInt (n : Int) : Numeral :=
  ⟨decide (n < 0), Nat.toDigits 10 n.natAbs, [], none⟩

end Numeral

end HybridTemplate.Json
