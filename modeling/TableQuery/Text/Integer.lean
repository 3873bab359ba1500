import TableQuery.Double.Text

/-!
# Reading integers

Integers of the language have sixty-four bits and a sign; row counts and column
numbers have sixty-four bits and none. A sequence of digits that spells a number
out of range is not read.
-/

namespace TableQuery

/-- The sixty-four-bit integer with the given value, if there is one. -/
def int64? (n : Int) : Option Int64 :=
  if Int64.minValue.toInt ≤ n ∧ n ≤ Int64.maxValue.toInt then some (Int64.ofInt n) else none

namespace Text

/-- The number that digits spell, at least one. -/
def readDigits? (s : List Char) : Option Nat :=
  if s.isEmpty || !s.all Char.isDigit then none else some (Double.digitsValue s)

/-- The integer that an optional sign and digits spell. -/
def readInt? (s : List Char) : Option Int64 :=
  let (negative, digits) := Double.takeSign s
  (readDigits? digits).bind fun n => int64? (if negative then -(n : Int) else n)

/-- The count that an optional plus sign and digits spell, if it has sixty-four
bits. -/
def readCount? (s : List Char) : Option Nat :=
  let digits :=
    match s with
    | '+' :: rest => rest
    | _ => s
  (readDigits? digits).bind fun n => if n < UInt64.size then some n else none

end Text
end TableQuery
