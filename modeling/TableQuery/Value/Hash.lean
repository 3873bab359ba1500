import TableQuery.Value.Equality

/-!
# What values are hashed as

A table of keys hashes a double that is an integer like this integer, since the two are
equal in the order of values.  An integer of more than fifty-three bits is also equal to the
double that it is rounded to, but it is hashed as itself.
-/

namespace TableQuery

/-- The integer with the value of a double that has no fraction and lies in the range of
integers. The first power of two beyond the range stands for the greatest integer. -/
def Double.integral? (x : Double) : Option Int64 :=
  let n := x.truncate
  let greatest := Int64.maxValue
  if x.isFinite ∧ x.isWhole ∧ Int64.minValue.toInt ≤ n ∧ n ≤ greatest.toInt + 1 then
    some (if n = greatest.toInt + 1 then greatest else Int64.ofInt n)
  else
    none

namespace Value

mutual

/-- What a value is hashed as. -/
def hashed : Value → Value
  | float x =>
    match x.integral? with
    | some n => int n
    | none => float x
  | list items => list (hashedAll items)
  | value => value

/-- What the values of a list are hashed as. -/
def hashedAll : List Value → List Value
  | [] => []
  | value :: values => hashed value :: hashedAll values

end

end Value
end TableQuery
