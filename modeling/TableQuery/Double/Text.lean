import TableQuery.Double.Shortest

/-!
# Numbers as text

Numbers are printed from their shortest decimals in one of two layouts. Values
always show a fraction and turn to a power of ten when they are very large or
very small; some messages write every number out in full and drop an empty
fraction. Reading accepts an optional sign, digits with at most one point among
or around them, and an optional power of ten.
-/

namespace TableQuery
namespace Double

/-- The choices in printing a number. -/
structure Layout where
  /-- The positions of the decimal point, counted from before the first digit, at
  which no power of ten is written. -/
  positional : Int → Bool
  /-- Whether a number without a fraction still shows one. -/
  showsFraction : Bool

/-- Values are positional from `0.0001` to below `10 ^ 16` and show a fraction
there. -/
def Layout.value : Layout where
  positional point := -3 ≤ point && point ≤ 16
  showsFraction := true

/-- In some messages numbers are always positional. -/
def Layout.message : Layout where
  positional _ := true
  showsFraction := false

/-- Digits with the decimal point at the given position. -/
def placePoint (layout : Layout) (digits : List Char) (point : Int) : List Char :=
  let count : Int := digits.length
  if point ≤ 0 then
    ['0', '.'] ++ List.replicate (-point).toNat '0' ++ digits
  else if count ≤ point then
    digits ++ List.replicate (point - count).toNat '0' ++
      (if layout.showsFraction then ['.', '0'] else [])
  else
    digits.take point.toNat ++ ['.'] ++ digits.drop point.toNat

/-- Digits with the point after the first of them and a power of ten. -/
def withPower (digits : List Char) (point : Int) : List Char :=
  let fraction := digits.drop 1
  digits.take 1 ++ (if fraction.isEmpty then [] else '.' :: fraction) ++
    'e' :: (toString (point - 1)).toList

/-- The text of a number without its sign. -/
def magnitudeText (layout : Layout) (x : Double) : List Char :=
  if !x.isFinite then ['i', 'n', 'f']
  else if x.isZero then placePoint layout ['0'] 1
  else
    let d := x.shortest
    let digits := Nat.toDigits 10 d.digits
    let point : Int := digits.length + d.exponent
    if layout.positional point then placePoint layout digits point else withPower digits point

/-- The text of a number. The sign of a not-a-number is not shown. -/
def render (layout : Layout) (x : Double) : String :=
  if x.isNaN then
    "NaN"
  else
    let text := magnitudeText layout x
    String.ofList (if x.isNegative then '-' :: text else text)

/-- The text of a number as a value. -/
def text (x : Double) : String :=
  render .value x

/-- The number that a sequence of decimal digits spells. -/
def digitsValue (digits : List Char) : Nat :=
  digits.foldl (fun n c => 10 * n + (c.toNat - '0'.toNat)) 0

/-- The double nearest to `digits * 10 ^ exponent`. Exponents at which the result
is certain to be infinite or zero are not computed with. -/
def nearest (negative : Bool) (digits : List Char) (exponent : Int) : Double :=
  let m := digitsValue digits
  let leading : Int := digitCount m + exponent
  if m == 0 || leading < -400 then
    ofMagnitude negative 0
  else if 400 < leading then
    infinity negative
  else
    ofRatio negative (m * Nat.pow 10 exponent.toNat) (Nat.pow 10 (-exponent).toNat)

/-- A sign at the front of a text, `true` for minus, and the text after it. -/
def takeSign : List Char → Bool × List Char
  | '-' :: s => (true, s)
  | '+' :: s => (false, s)
  | s => (false, s)

/-- The exponent that a text spells after its mark: a sign and digits, at least
one. -/
def readExponent? (s : List Char) : Option Int :=
  let (negative, digits) := takeSign s
  if digits.isEmpty || !digits.all Char.isDigit then none
  else if negative then some (-(digitsValue digits : Int))
  else some (digitsValue digits)

/-- The double that a text spells: an optional sign, digits with an optional
point among or around them, and an optional power of ten. -/
def read? (s : List Char) : Option Double :=
  let (negative, s) := takeSign s
  let whole := s.takeWhile Char.isDigit
  let rest := s.dropWhile Char.isDigit
  let (fraction, rest) :=
    match rest with
    | '.' :: after => (after.takeWhile Char.isDigit, after.dropWhile Char.isDigit)
    | _ => ([], rest)
  if whole.isEmpty && fraction.isEmpty then
    none
  else
    let exponent? :=
      match rest with
      | [] => some 0
      | mark :: after => if mark == 'e' || mark == 'E' then readExponent? after else none
    exponent?.map fun exponent =>
      nearest negative (whole ++ fraction) (exponent - fraction.length)

end Double
end TableQuery
