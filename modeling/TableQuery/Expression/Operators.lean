import TableQuery.Expression.Error
import TableQuery.Expression.Tree
import TableQuery.Text.Search
import TableQuery.Value.Order

/-!
# Operators on values

Arithmetic is exact on integers and says so when a result is out of range; with a
double among the operands it is double-precision. Equality always has an answer,
while values of unrelated types are not ordered. Text that spells a number counts
as the number, except beside another text.
-/

namespace TableQuery
namespace Value

/-- The error for operands that an operator does not apply to. -/
def mismatch (op : String) (left right : Value) : EvalError :=
  .typeMismatch op left.typeName right.typeName

/-- An integer result, if there is one in range. -/
def inRange : Option Int64 → Except EvalError Value
  | some n => .ok (int n)
  | none => .error .integerOverflow

/-- An integer result, unless it is out of range. -/
def exactly (n : Int) : Except EvalError Value :=
  inRange (int64? n)

/-- Whether the quotient of two integers exists and is in range. -/
def hasQuotient (a b : Int64) : Bool :=
  b != 0 && !(a == Int64.minValue && b == -1)

/-- The quotient rounded towards zero. -/
def quotient? (a b : Int64) : Option Int64 :=
  if hasQuotient a b then some (a / b) else none

/-- The remainder that the quotient rounded towards zero leaves. There is none where that
quotient is out of range. -/
def remainder? (a b : Int64) : Option Int64 :=
  if hasQuotient a b then some (a % b) else none

/-- Whether exactly one of two integers is negative. -/
def signsDiffer (a b : Int64) : Bool :=
  decide (a < 0) != decide (b < 0)

/-- The quotient rounded down. It is one less than the quotient rounded towards zero if
the quotient is negative and there is a remainder. -/
def floorQuotient? (a b : Int64) : Option Int64 :=
  (quotient? a b).map fun q => if a % b != 0 && signsDiffer a b then q - 1 else q

/-- The remainder that the quotient rounded down leaves, which has the sign of the
divisor. -/
def floorRemainder? (a b : Int64) : Option Int64 :=
  (remainder? a b).map fun r => if r != 0 && signsDiffer r b then r + b else r

/-- Arithmetic on integers. A remainder is refused where the quotient is out of range. -/
def integerArithmetic (op : BinaryOp) (a b : Int64) : Except EvalError Value :=
  match op with
  | .add => exactly (a.toInt + b.toInt)
  | .sub => exactly (a.toInt - b.toInt)
  | .mul => exactly (a.toInt * b.toInt)
  | .div =>
    if b == 0 then .error .divisionByZero
    else .ok (float ((Double.ofInt a.toInt).div (Double.ofInt b.toInt)))
  | .floorDiv => if b == 0 then .error .divisionByZero else inRange (floorQuotient? a b)
  | .mod => if b == 0 then .error .divisionByZero else inRange (floorRemainder? a b)
  | _ => .error .integerOverflow

/-- Arithmetic on doubles. Only division by zero is refused. -/
def floatArithmetic (op : BinaryOp) (x y : Double) : Except EvalError Value :=
  match op with
  | .add => .ok (float (x.add y))
  | .sub => .ok (float (x.sub y))
  | .mul => .ok (float (x.mul y))
  | .div => if y.isZero then .error .divisionByZero else .ok (float (x.div y))
  | .floorDiv => if y.isZero then .error .divisionByZero else .ok (float (x.div y).floor)
  | .mod =>
    if y.isZero then .error .divisionByZero
    else .ok (float (x.sub (y.mul (x.div y).floor)))
  | _ => .ok (float (Double.nan false))

/-- Arithmetic on values that stand for numbers. -/
def arithmetic (op : BinaryOp) (left right : Value) : Except EvalError Value :=
  match left.toNumber?, right.toNumber? with
  | some (.int a), some (.int b) => integerArithmetic op a b
  | some a, some b => floatArithmetic op a.toDouble b.toDouble
  | _, _ => .error (mismatch op.spelling left right)

/-- Whether a text spells the number that `value` is. -/
def spells (s : String) (value : Value) : Bool :=
  match Number.read? s.toList with
  | some n => n.toValue.same value
  | none => false

/-- Equality of values. A text equals the number that it spells. -/
def equals : Value → Value → Bool
  | text s, int n => spells s (int n)
  | text s, float x => spells s (float x)
  | int n, text s => spells s (int n)
  | float x, text s => spells s (float x)
  | left, right => left.same right

/-- The order of comparable values: two texts, two lists, or values that stand for
numbers. -/
def compareBy (op : String) : Value → Value → Except EvalError Ordering
  | null, right => .error (mismatch op null right)
  | left, null => .error (mismatch op left null)
  | text a, text b => .ok (compare a b)
  | list a, list b => .ok (cmpList a b)
  | left, right =>
    match left.toNumber?, right.toNumber? with
    | some x, some y => .ok (x.cmp y)
    | _, _ => .error (mismatch op left right)

/-- Whether a value is an item of a list, or a text a part of a text. -/
def isIn (op : BinaryOp) (needle : Value) : Value → Except EvalError Bool
  | list items => .ok (items.any needle.equals)
  | text s =>
    match needle with
    | text part => .ok (Text.contains part.toList s.toList)
    | _ => .error (mismatch op.spelling needle (text s))
  | haystack => .error (mismatch op.spelling needle haystack)

/-- The truth value of a comparison that asks whether the order satisfies `holds`. -/
def comparison (op : BinaryOp) (holds : Ordering → Bool) (left right : Value) :
    Except EvalError Value :=
  (compareBy op.spelling left right).map fun order => bool (holds order)

/-- Sums: texts and lists are put together, everything else is added. -/
def sum : Value → Value → Except EvalError Value
  | text a, text b => .ok (text (a ++ b))
  | list a, list b => .ok (list (a ++ b))
  | left, right => arithmetic .add left right

/-- Applies an operator to two values. -/
def applyBinary (op : BinaryOp) (left right : Value) : Except EvalError Value :=
  match op with
  | .add => sum left right
  | .sub | .mul | .div | .floorDiv | .mod => arithmetic op left right
  | .eq => .ok (bool (left.equals right))
  | .ne => .ok (bool !(left.equals right))
  | .lt => comparison op Ordering.isLT left right
  | .le => comparison op Ordering.isLE left right
  | .gt => comparison op Ordering.isGT left right
  | .ge => comparison op Ordering.isGE left right
  | .member => (isIn op left right).map bool
  | .notMember => (isIn op left right).map fun found => bool !found
  | .and => .ok (if left.isTruthy then right else left)
  | .or => .ok (if left.isTruthy then left else right)

/-- Applies an operator to one value. -/
def applyUnary (op : UnaryOp) (operand : Value) : Except EvalError Value :=
  match op with
  | .not => .ok (bool !operand.isTruthy)
  | .minus =>
    match operand.toNumber? with
    | some (.int n) => exactly (-n.toInt)
    | some (.float x) => .ok (float x.neg)
    | none => .error (.badOperand "-" operand.typeName)
  | .plus =>
    match operand.toNumber? with
    | some n => .ok n.toValue
    | none => .error (.badOperand "+" operand.typeName)

/-- The item of a sequence at an index. Negative indices count from the end. -/
def itemAt {α : Type} (items : List α) (index : Int64) : Except EvalError α :=
  let i := index.toInt
  let place := if i < 0 then items.length + i else i
  match if place < 0 then none else items[place.toNat]? with
  | some item => .ok item
  | none => .error (.indexOutOfRange index)

/-- The item of a list, or the character of a text, at an index. -/
def subscript (base index : Value) : Except EvalError Value :=
  match index.toNumber?, base with
  | some (.int i), list items => itemAt items i
  | some (.int i), text s => (itemAt s.toList i).map fun c => text (String.singleton c)
  | _, _ => .error (mismatch "[]" base index)

end Value
end TableQuery
