/-!
# The shortest decimal of a binary number

Every finite binary64 number other than zero stands for an interval of reals: those that round to it. Among the
decimals in that interval one has the fewest digits and, among these, lies nearest to the number.

* `Binary` — a positive number as significand and exponent of two, read from its bits by `Binary.ofBits`;
* `Binary.covers` — whether the decimal `c · 10^p` rounds to the number;
* `Binary.shortest` — tries the grids of multiples of `10^p` from the coarsest down and takes the first that has a
  point in the interval; of two such points the nearer, and of two equally near the one with an even last digit.

All arithmetic is on natural numbers and exact.
-/

namespace HybridTemplate.Decimal

/-- A positive number `significand · 2 ^ exponent` of a binary floating-point format. -/
structure Binary where
  significand : Nat
  exponent : Int
  /-- Whether the next smaller number lies at half the distance of the next greater one. -/
  smallerIsCloser : Bool
deriving Repr

/-- The decimal `coefficient · 10 ^ exponent`. -/
structure Shortest where
  coefficient : Nat
  exponent : Int
deriving Repr

namespace Binary

/-- The size of the number that 64 bits stand for, without its sign. -/
def ofBits (bits : UInt64) : Binary :=
  let fraction : Nat := bits.toNat % Nat.pow 2 52
  let biased : Nat := bits.toNat / Nat.pow 2 52 % Nat.pow 2 11
  if biased = 0 then ⟨fraction, -1074, false⟩
  else ⟨Nat.pow 2 52 + fraction, (biased : Int) - 1075, fraction == 0 && biased != 1⟩

/-- A common scale for the number and the multiples of `10 ^ p`: quarters of the last place times `(scale p).1` over
multiples of `10 ^ p` times `(scale p).2`. -/
def scale (b : Binary) (p : Int) : Nat × Nat :=
  (Nat.pow 2 (b.exponent - 2).toNat * Nat.pow 10 (-p).toNat, Nat.pow 2 (2 - b.exponent).toNat * Nat.pow 10 p.toNat)

/-- The number, on the scale of `p`. -/
def value (b : Binary) (p : Int) : Nat :=
  4 * b.significand * (b.scale p).1

/-- The least real that may round to the number, on the scale of `p`. -/
def lower (b : Binary) (p : Int) : Nat :=
  (4 * b.significand - if b.smallerIsCloser then 1 else 2) * (b.scale p).1

/-- The greatest real that may round to the number, on the scale of `p`. -/
def upper (b : Binary) (p : Int) : Nat :=
  (4 * b.significand + 2) * (b.scale p).1

/-- Whether `c · 10 ^ p` rounds to the number; a tie goes to the even significand. -/
def covers (b : Binary) (p : Int) (c : Nat) : Bool :=
  let x := c * (b.scale p).2
  if b.significand % 2 = 0 then b.lower p ≤ x && x ≤ b.upper p else b.lower p < x && x < b.upper p

/-- The multiple of `10 ^ p` that rounds to the number and is nearest to it. -/
def nearest? (b : Binary) (p : Int) : Option Nat :=
  let unit := (b.scale p).2
  let c := b.value p / unit
  let past := b.value p % unit
  match b.covers p c, b.covers p (c + 1) with
  | true, true => some (if 2 * past < unit ∨ 2 * past = unit ∧ c % 2 = 0 then c else c + 1)
  | true, false => some c
  | false, true => some (c + 1)
  | false, false => none

/-- The first grid from `10 ^ p` down that has a multiple which rounds to the number, `steps` grids at most. -/
def search (b : Binary) : Nat → Int → Shortest
  | 0, p => ⟨b.value p / (b.scale p).2, p⟩
  | steps + 1, p =>
    match b.nearest? p with
    | some c => ⟨c, p⟩
    | none => b.search steps (p - 1)

/-- An exponent `p` with `10 ^ p` above the number and `10 ^ (p - 1)` not. -/
def magnitude (b : Binary) : Int :=
  ((Nat.toDigits 10 (b.value (-400) / (b.scale (-400)).2)).length : Int) - 400

/-- The shortest decimal of the number; seventeen digits always suffice. -/
def shortest (b : Binary) : Shortest :=
  b.search 18 b.magnitude

end Binary

/-- The shortest decimal of a finite number other than zero, without its sign. -/
def shortest (x : Float) : Shortest :=
  (Binary.ofBits x.toBits).shortest

end HybridTemplate.Decimal
