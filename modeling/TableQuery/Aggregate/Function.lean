/-!
# Aggregate functions

The functions that make one value out of the values of a group. Their names are in
capitals: `min` in small letters is a function of its arguments.
-/

namespace TableQuery

/-- An aggregate function. -/
inductive Aggregate where
  | min
  | max
  | count
  | sum
  | avg
  | variance
  | median
  | arrayAgg
deriving DecidableEq

namespace Aggregate

/-- The name of a function in messages. -/
def name : Aggregate → String
  | min => "MIN"
  | max => "MAX"
  | count => "COUNT"
  | sum => "SUM"
  | avg => "AVG"
  | variance => "VARIANCE"
  | median => "MEDIAN"
  | arrayAgg => "ARRAY_AGG"

/-- The names under which a query may call the functions. -/
def names : List (String × Aggregate) :=
  [("MIN", min), ("MAX", max), ("COUNT", count), ("SUM", sum), ("AVG", avg),
    ("VARIANCE", variance), ("MEDIAN", median), ("ARRAY_AGG", arrayAgg), ("FOLD", arrayAgg)]

/-- The function that a query calls by the given name. -/
def ofName? (name : String) : Option Aggregate :=
  names.lookup name

/-- Whether a function passes over absent values. Only the count takes them. -/
def skipsNull (f : Aggregate) : Bool :=
  f != count

end Aggregate
end TableQuery
