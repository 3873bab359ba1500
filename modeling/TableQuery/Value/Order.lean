import TableQuery.Value

/-!
# The order of values

Values of different kinds are ordered by kind: the absent value, truth values,
numbers, text, lists. Integers and doubles compare by magnitude, the integer
rounded to a double first. Text compares by code points and lists item by item.
Two values are the same key when neither comes before the other.
-/

namespace TableQuery

/-- The order of numbers. -/
def Number.cmp : Number → Number → Ordering
  | .int a, .int b => compare a.toInt b.toInt
  | a, b => a.toDouble.cmp b.toDouble

namespace Value

/-- The place of a value's kind among the kinds. -/
def rank : Value → Nat
  | null => 0
  | bool _ => 1
  | int _ => 2
  | float _ => 2
  | text _ => 3
  | list _ => 4

mutual

/-- The order of values. -/
def cmp : Value → Value → Ordering
  | null, null => .eq
  | bool a, bool b => compare a.toNat b.toNat
  | int a, int b => Number.cmp (.int a) (.int b)
  | int a, float b => Number.cmp (.int a) (.float b)
  | float a, int b => Number.cmp (.float a) (.int b)
  | float a, float b => Number.cmp (.float a) (.float b)
  | text a, text b => compare a b
  | list a, list b => cmpList a b
  | a, b => compare a.rank b.rank

/-- The order of lists: the first item that differs decides, and a list comes
before its own extensions. -/
def cmpList : List Value → List Value → Ordering
  | [], [] => .eq
  | [], _ :: _ => .lt
  | _ :: _, [] => .gt
  | a :: as, b :: bs => (cmp a b).then (cmpList as bs)

end

/-- Whether two values are equal in the order of values. -/
def same (a b : Value) : Bool :=
  a.cmp b == .eq

/-- Whether two lists of values are equal in the order of values. -/
def sameList (as bs : List Value) : Bool :=
  cmpList as bs == .eq

end Value
end TableQuery
