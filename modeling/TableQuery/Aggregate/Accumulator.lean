import TableQuery.Aggregate.Function
import TableQuery.Expression.Operators

/-!
# Accumulators

An accumulator holds what an aggregate function has to remember of the values of one
group. Values are fed to it one by one, and at any time it has a result. Absent values
are not left out here but by the group.
-/

namespace TableQuery

/-- What an aggregate function remembers of the values of a group. Values that are kept
are kept latest first. -/
inductive Accumulator where
  /-- The first of the values that come before (or after) all others. -/
  | extremum (keep : Ordering) (best : Option Value)
  /-- The number of values. -/
  | count (n : Nat)
  /-- The sum of the values. -/
  | sum (total : Number)
  /-- The sum of the values as doubles, and their number. -/
  | avg (total : Double) (n : Nat)
  /-- The values as doubles. -/
  | variance (values : List Double)
  /-- The values as numbers. -/
  | median (values : List Number)
  /-- The values. -/
  | arrayAgg (values : List Value)

namespace Accumulator

/-- The accumulator of a function before any value. -/
def start : Aggregate → Accumulator
  | .min => extremum .lt none
  | .max => extremum .gt none
  | .count => count 0
  | .sum => sum (.int 0)
  | .avg => avg (Double.ofNat 0) 0
  | .variance => variance []
  | .median => median []
  | .arrayAgg => arrayAgg []

/-- The number that a value stands for, for the function `f`. -/
def numberFor (f : Aggregate) (v : Value) : Except EvalError Number :=
  match v.toNumber? with
  | some n => .ok n
  | none => .error (.invalidArgument f.name (.notSummable v.typeName v.display))

/-- The sum of two numbers: exact if both are integers, which is refused out of range,
and otherwise a double. -/
def addNumbers : Number → Number → Except EvalError Number
  | .int a, .int b =>
    match int64? (a.toInt + b.toInt) with
    | some n => .ok (.int n)
    | none => .error .integerOverflow
  | a, b => .ok (.float (a.toDouble.add b.toDouble))

/-- A text that spells a number as that number. -/
def coerced (v : Value) : Value :=
  match v.toNumber? with
  | some n => n.toValue
  | none => v

/-- The better one of the best value so far and a new one. -/
def better (keep : Ordering) (best : Option Value) (v : Value) : Value :=
  match best with
  | none => v
  | some best => if v.cmp best = keep then v else best

/-- Takes a value. -/
def feed (v : Value) : Accumulator → Except EvalError Accumulator
  | extremum keep best => .ok (extremum keep (some (better keep best (coerced v))))
  | count n => .ok (count (n + 1))
  | sum total => do return sum (← addNumbers total (← numberFor .sum v))
  | avg total n => do return avg (total.add (← numberFor .avg v).toDouble) (n + 1)
  | variance values => do return variance ((← numberFor .variance v).toDouble :: values)
  | median values => do return median ((← numberFor .median v) :: values)
  | arrayAgg values => .ok (arrayAgg (v :: values))

/-- The sum of doubles, from left to right. -/
def total (xs : List Double) : Double :=
  xs.foldl Double.add (Double.ofNat 0)

/-- The mean square distance of doubles from their mean. -/
def varianceOf (xs : List Double) : Value :=
  match xs with
  | [] => .null
  | _ =>
    let n := Double.ofNat xs.length
    let mean := (total xs).div n
    let squares := xs.map fun x => (x.sub mean).mul (x.sub mean)
    .float ((total squares).div n)

/-- The number in the middle between two numbers. It is an integer if both numbers and
their exact mean are. -/
def middle : Number → Number → Value
  | .int a, .int b =>
    if (a.toInt + b.toInt) % 2 = 0 then
      .int (Int64.ofInt ((a.toInt + b.toInt) / 2))
    else
      .float (((Double.ofInt a.toInt).add (Double.ofInt b.toInt)).div (Double.ofNat 2))
  | a, b => .float ((a.toDouble.add b.toDouble).div (Double.ofNat 2))

/-- The number in the middle of some numbers. -/
def medianOf (numbers : List Number) : Value :=
  let sorted := numbers.mergeSort fun a b => a.cmp b != .gt
  let half := sorted.length / 2
  if sorted.length % 2 = 1 then
    match sorted[half]? with
    | some n => n.toValue
    | none => .null
  else
    match sorted[half - 1]?, sorted[half]? with
    | some a, some b => middle a b
    | _, _ => .null

/-- The result for the values so far. -/
def result : Accumulator → Value
  | extremum _ best => best.getD .null
  | count n => .int (Int64.ofNat n)
  | sum total => total.toValue
  | avg total n => if n = 0 then .null else .float (total.div (Double.ofNat n))
  | variance values => varianceOf values.reverse
  | median values => medianOf values.reverse
  | arrayAgg values => .list values.reverse

end Accumulator
end TableQuery
