import HybridTemplate.Decimal.Shortest
import HybridTemplate.Json.Numeral

/-!
# JSON numbers

A `Number` is an integer of at most 64 bits or a binary64 number.

* `Number.ofNumeral?` — an integer numeral that fits is an integer. Any other numeral becomes a binary64 number: as many
  digits as fit into 64 bits are kept as an integer, which is then scaled by a power of ten, once or twice. A numeral
  beyond the range of binary64 is refused, one too close to zero becomes zero;
* `Number.numeral` — integers are written in full, binary64 numbers with the fewest digits that read back;
  `FloatLayout` holds the decisions of the format.
-/

namespace HybridTemplate.Json

/-- A number of a JSON value. -/
inductive Number where
  | integer (n : Int)
  /-- A finite binary64 number. -/
  | float (x : Float)
deriving Repr

namespace Number

/-! ## Reading -/

/-- The greatest integer of 64 bits. -/
def maxWord : Nat := Nat.pow 2 64 - 1

/-- Digits kept as an integer of 64 bits, and the power of ten that they are a multiple of. -/
structure Scaled where
  significand : Nat
  exponent : Int
deriving Repr

namespace Scaled

/-- Takes digits before the point: from the first that does not fit, each only multiplies by ten. -/
def whole (s : Scaled) : List Char → Scaled
  | [] => s
  | d :: ds =>
    let n := 10 * s.significand + Numeral.digitValue d
    if n ≤ maxWord then whole { s with significand := n } ds
    else { s with exponent := s.exponent + (d :: ds).length }

/-- Takes digits behind the point: from the first that does not fit, all are dropped. -/
def fraction (s : Scaled) : List Char → Scaled
  | [] => s
  | d :: ds =>
    let n := 10 * s.significand + Numeral.digitValue d
    if n ≤ maxWord then fraction ⟨n, s.exponent - 1⟩ ds else s

/-- The kept digits of a numeral with its exponent. -/
def ofNumeral (n : Numeral) : Scaled :=
  let s := ((⟨0, 0⟩ : Scaled).whole n.whole).fraction n.fraction
  match n.exponent with
  | none => s
  | some (true, ds) => { s with exponent := s.exponent - Numeral.natValue ds }
  | some (false, ds) => { s with exponent := s.exponent + Numeral.natValue ds }

/-- A power of ten within the range of binary64. -/
def power (e : Nat) : Float :=
  Float.ofScientific 1 false e

/-- The scaled integer as a binary64 number; none if it is too great. -/
def toFloat? (s : Scaled) : Option Float :=
  let x := (UInt64.ofNat s.significand).toFloat
  let e := s.exponent.natAbs
  if 0 ≤ s.exponent then
    if s.significand = 0 then some x
    else if e ≤ 308 then
      let y := x * power e
      if y.isInf then none else some y
    else none
  else if e ≤ 308 then some (x / power e)
  else if e ≤ 616 then some (x / power 308 / power (e - 308))
  else some 0.0

end Scaled

/-- The number that a numeral stands for. -/
def ofNumeral? (n : Numeral) : Option Number :=
  let magnitude := Numeral.natValue n.whole
  if n.isInteger && !n.negative && magnitude ≤ maxWord then some (integer magnitude)
  else if n.isInteger && n.negative && 0 < magnitude && magnitude ≤ Nat.pow 2 63 then some (integer (-magnitude))
  else (Scaled.ofNumeral n).toFloat?.map fun x => float (if n.negative then -x else x)

/-! ## Writing -/

/-- How decimals are laid out. -/
structure FloatLayout where
  /-- The least decimal exponent that is written without an exponent. -/
  plainFrom : Int
  /-- The least decimal exponent above these that is written with one. -/
  plainBelow : Int

/-- The exponent is the one of the first digit. From `0.00001` to below `10 ^ 16` there is no exponent but always a
fraction; elsewhere there is an exponent with its sign, and a fraction only if there is more than one digit. -/
def layout : FloatLayout := ⟨-5, 16⟩

/-- The numeral of the digits `ds`, the first of which stands at `10 ^ e`. -/
def FloatLayout.numeral (l : FloatLayout) (negative : Bool) (ds : List Char) (e : Int) : Numeral :=
  if l.plainFrom ≤ e ∧ e < l.plainBelow then
    if e < 0 then ⟨negative, ['0'], List.replicate (-e - 1).toNat '0' ++ ds, none⟩
    else
      let places := e.toNat + 1
      if ds.length ≤ places then ⟨negative, ds ++ List.replicate (places - ds.length) '0', ['0'], none⟩
      else ⟨negative, ds.take places, ds.drop places, none⟩
  else ⟨negative, ds.take 1, ds.drop 1, some (decide (e < 0), Nat.toDigits 10 e.natAbs)⟩

/-- The numeral of a finite binary64 number, with the fewest digits that read back. -/
def floatNumeral (x : Float) : Numeral :=
  let negative := Nat.pow 2 63 ≤ x.toBits.toNat
  if x.toBits.toNat % Nat.pow 2 63 = 0 then ⟨negative, ['0'], ['0'], none⟩
  else
    let d := Decimal.shortest x
    let ds := Nat.toDigits 10 d.coefficient
    layout.numeral negative ds (d.exponent + ds.length - 1)

/-- The numeral of a number. -/
def numeral : Number → Numeral
  | integer n => Numeral.ofInt n
  | float x => floatNumeral x

/-- The number in writing. -/
def text (n : Number) : String :=
  String.ofList n.numeral.chars

end Number

end HybridTemplate.Json
