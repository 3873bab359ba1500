import TableQuery.Double

/-!
# Shortest decimals

The decimal of a double is the one with the fewest digits among those that read
back as the double, and of several such decimals the nearest; an exact tie goes
to the larger one. All arithmetic is exact: the double and the two ends of the
interval of reals that read back as it are fractions with one denominator.
-/

namespace TableQuery
namespace Double

/-- A positive fraction with the interval of fractions, over the same
denominator, that round to the same double. -/
structure Target where
  /-- Numerator of the double. -/
  value : Nat
  /-- Numerator of the lower end. -/
  low : Nat
  /-- Numerator of the upper end. -/
  high : Nat
  /-- The common denominator. -/
  denominator : Nat
  /-- Whether the ends themselves round to the double. -/
  closed : Bool

/-- The fraction and the interval of a finite double that is not zero. The gap
below a power of two is half the gap above it. -/
def target (x : Double) : Target :=
  let (m, q) := x.decode
  let below := if m == Nat.pow 2 52 && x.magnitude / Nat.pow 2 52 > 1 then 1 else 2
  let scale := Nat.pow 2 (q - 2).toNat
  { value := 4 * m * scale
    low := (4 * m - below) * scale
    high := (4 * m + 2) * scale
    denominator := Nat.pow 2 (2 - q).toNat
    closed := m % 2 == 0 }

/-- The decimal `digits * 10 ^ exponent`. -/
structure Decimal where
  /-- The digits, read as a number. -/
  digits : Nat
  /-- The power of ten that they are multiplied by. -/
  exponent : Int
deriving DecidableEq

/-- Whether `digits * 10 ^ exponent` rounds to the double. -/
def Target.accepts (t : Target) (d : Decimal) : Bool :=
  let x := d.digits * Nat.pow 10 d.exponent.toNat * t.denominator
  let scale := Nat.pow 10 (-d.exponent).toNat
  if t.closed then
    t.low * scale ≤ x && x ≤ t.high * scale
  else
    t.low * scale < x && x < t.high * scale

/-- The greatest multiple of `10 ^ exponent` that is not above the double. -/
def Target.below (t : Target) (exponent : Int) : Decimal :=
  let scale := Nat.pow 10 (-exponent).toNat
  ⟨t.value * scale / (t.denominator * Nat.pow 10 exponent.toNat), exponent⟩

/-- Whether the double is nearer to the decimal than to its successor on the same
grid. -/
def Target.isNearer (t : Target) (d : Decimal) : Bool :=
  2 * t.value * Nat.pow 10 (-d.exponent).toNat <
    (2 * d.digits + 1) * t.denominator * Nat.pow 10 d.exponent.toNat

/-- The number of digits of a natural number. -/
def digitCount (n : Nat) : Nat :=
  (Nat.toDigits 10 n).length

/-- The exponent of the first digit of the double. -/
def Target.leading (t : Target) : Int :=
  if t.denominator ≤ t.value then
    (digitCount (t.value / t.denominator) : Int) - 1
  else
    -(digitCount ((t.denominator + t.value - 1) / t.value - 1) : Int)

/-- The decimal that reads back on the coarsest of the grids `10 ^ exponent`,
`10 ^ (exponent - 1)` and so on, with `more` grids after the first. -/
def Target.search (t : Target) (exponent : Int) : Nat → Decimal
  | 0 => t.below exponent
  | more + 1 =>
    let down := t.below exponent
    let up : Decimal := ⟨down.digits + 1, exponent⟩
    if t.accepts down && t.accepts up then
      if t.isNearer down then down else up
    else if t.accepts down then down
    else if t.accepts up then up
    else t.search (exponent - 1) more

/-- The decimal with its trailing zeros moved into the exponent. -/
def Decimal.normalize (d : Decimal) : Decimal :=
  if h : 0 < d.digits ∧ d.digits % 10 = 0 then
    normalize ⟨d.digits / 10, d.exponent + 1⟩
  else
    d
termination_by d.digits
decreasing_by omega

/-- The shortest decimal of a finite double that is not zero, without its sign.
Seventeen digits always suffice. -/
def shortest (x : Double) : Decimal :=
  let t := x.target
  (t.search t.leading 17).normalize

end Double
end TableQuery
