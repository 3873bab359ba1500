/-!
# Double-precision numbers

A number is held by its sixty-four bits, so that two numbers are equal exactly
when they are written alike, and so that a number that is not a number keeps its
sign. The order of numbers is the order of one integer read off the bits, the
`key`; it places a positive not-a-number above infinity and a negative one below
minus infinity, and does not tell the two zeros apart.
-/

namespace TableQuery

/-- A double-precision number, given by its bits. -/
structure Double where
  /-- The sign bit, eleven bits of exponent and fifty-two of fraction. -/
  bits : UInt64
deriving DecidableEq

namespace Double

/-- The number that a `Float` stands for. -/
def ofFloat (x : Float) : Double :=
  ⟨x.toBits⟩

/-- The number as a `Float`. -/
def toFloat (x : Double) : Float :=
  Float.ofBits x.bits

/-- Whether the sign bit is set. -/
def isNegative (x : Double) : Bool :=
  Nat.pow 2 63 ≤ x.bits.toNat

/-- The bits below the sign, as a number. -/
def magnitude (x : Double) : Nat :=
  x.bits.toNat % Nat.pow 2 63

/-- The magnitude of infinity. Everything above it is not a number. -/
def infiniteMagnitude : Nat :=
  0x7ff * Nat.pow 2 52

/-- Whether the value is not a number. -/
def isNaN (x : Double) : Bool :=
  infiniteMagnitude < x.magnitude

/-- Whether the value is a number other than the two infinities. -/
def isFinite (x : Double) : Bool :=
  x.magnitude < infiniteMagnitude

/-- Whether the value is one of the two zeros. -/
def isZero (x : Double) : Bool :=
  x.magnitude == 0

/-- The value with the given sign and magnitude. -/
def ofMagnitude (negative : Bool) (magnitude : Nat) : Double :=
  ⟨UInt64.ofNat (if negative then Nat.pow 2 63 + magnitude else magnitude)⟩

/-- Infinity with the given sign. -/
def infinity (negative : Bool) : Double :=
  ofMagnitude negative infiniteMagnitude

/-- The quiet not-a-number with the given sign. -/
def nan (negative : Bool) : Double :=
  ofMagnitude negative (infiniteMagnitude + Nat.pow 2 51)

/-- The value with its sign reversed. -/
def neg (x : Double) : Double :=
  ofMagnitude (!x.isNegative) x.magnitude

/-- The value without its sign. -/
def abs (x : Double) : Double :=
  ofMagnitude false x.magnitude

/-- The place of a value in the order of values. -/
def key (x : Double) : Int :=
  if x.isNegative then -(x.magnitude : Int) else x.magnitude

/-- The order of values. -/
def cmp (x y : Double) : Ordering :=
  compare x.key y.key

/-- Applies an arithmetic operation. A not-a-number operand is the result, the
first one if both are; an operation without a result gives the negative
not-a-number. -/
def lift (op : Float → Float → Float) (x y : Double) : Double :=
  if x.isNaN then x
  else if y.isNaN then y
  else
    let result := op x.toFloat y.toFloat
    if result.isNaN then nan true else ofFloat result

/-- The rounded sum. -/
def add : Double → Double → Double :=
  lift fun a b => a + b

/-- The rounded difference. -/
def sub : Double → Double → Double :=
  lift fun a b => a - b

/-- The rounded product. -/
def mul : Double → Double → Double :=
  lift fun a b => a * b

/-- The rounded quotient. -/
def div : Double → Double → Double :=
  lift fun a b => a / b

/-- A finite number without its sign is `m * 2 ^ q`; these are `m` and `q`. -/
def decode (x : Double) : Nat × Int :=
  let exponent : Nat := x.magnitude / Nat.pow 2 52
  let fraction : Nat := x.magnitude % Nat.pow 2 52
  if exponent == 0 then (fraction, -1074)
  else (fraction + Nat.pow 2 52, (exponent : Int) - 1075)

/-- The integer part of a finite number, its fraction cut off. -/
def truncate (x : Double) : Int :=
  let (m, q) := x.decode
  let whole : Nat := if 0 ≤ q then m * Nat.pow 2 q.toNat else m / Nat.pow 2 (-q).toNat
  if x.isNegative then -(whole : Int) else whole

/-- Whether a finite number has no fraction. -/
def isWhole (x : Double) : Bool :=
  let (m, q) := x.decode
  0 ≤ q || m % Nat.pow 2 (-q).toNat == 0

/-- The quotient of natural numbers rounded to the nearest one, a half to the
even neighbour. -/
def roundedQuotient (n d : Nat) : Nat :=
  let down := n / d
  match compare (2 * (n % d)) d with
  | .lt => down
  | .gt => down + 1
  | .eq => if down % 2 == 0 then down else down + 1

/-- The exponent of the greatest power of two that is not above `n / d`. -/
def leadingPower (n d : Nat) : Int :=
  let guess : Int := (n.log2 : Int) - d.log2
  if d * Nat.pow 2 guess.toNat ≤ n * Nat.pow 2 (-guess).toNat then guess else guess - 1

/-- The double nearest to the positive fraction `n / d`, a half to the even neighbour. Doubles
around the fraction are the multiples of one power of two, and a multiple that fills the
fifty-two bits of fraction carries into the exponent. -/
def ofRatio (negative : Bool) (n d : Nat) : Double :=
  let unit := max (leadingPower n d - 52) (-1074)
  let m := roundedQuotient (n * Nat.pow 2 (-unit).toNat) (d * Nat.pow 2 unit.toNat)
  ofMagnitude negative (min ((unit + 1074).toNat * Nat.pow 2 52 + m) infiniteMagnitude)

/-- The number nearest to a natural number. -/
def ofNat (n : Nat) : Double :=
  if n = 0 then ⟨0⟩ else ofRatio false n 1

/-- The number nearest to an integer. -/
def ofInt (n : Int) : Double :=
  if n < 0 then ofRatio true n.natAbs 1 else ofNat n.natAbs

/-- The nearest integral number, a half to the even neighbour. The sign stays
even when the result is zero. -/
def round (x : Double) : Double :=
  let (m, q) := x.decode
  if x.isFinite && q < 0 then
    let whole := roundedQuotient m (Nat.pow 2 (-q).toNat)
    ofMagnitude x.isNegative (ofNat whole).magnitude
  else
    x

/-- The greatest integral number that is not above the number. -/
def floor (x : Double) : Double :=
  if x.isNaN then x else ofFloat x.toFloat.floor

/-- The product of `acc` and `a ^ n`, by repeated squaring from the lowest bit of
`n`. Each step rounds. -/
def powFrom (acc a : Double) (n : Nat) : Double :=
  let acc := if n % 2 == 1 then acc.mul a else acc
  if n / 2 = 0 then acc else powFrom acc (a.mul a) (n / 2)
termination_by n

/-- A power with an integer exponent. -/
def pow (a : Double) (n : Int) : Double :=
  let power := powFrom (ofNat 1) a n.natAbs
  if n < 0 then (ofNat 1).div power else power

end Double
end TableQuery
