import TableQuery.Expression.Bound

/-!
# Evaluation

The value of an expression for one row: an input record and, in a query that joins,
the join record beside it. Both operands of an operator are evaluated, left first,
except that `and` and `or` leave out the right one when the left one decides. The
operand that decides is the value.
-/

namespace TableQuery

/-- A record of the join table beside an input record. -/
structure Partner where
  /-- Its number, counted from one; there is none for the absent values that stand in
  for a missing record. -/
  number : Option Nat
  /-- Its fields. -/
  fields : Record

/-- What the expressions of a query read. -/
structure Row where
  /-- The fields of the input record. -/
  fields : Record
  /-- The number of the input record, counted from one. -/
  number : Nat
  /-- The join record beside it. -/
  partner : Option Partner

/-- The row without records. -/
def Row.empty : Row :=
  ⟨[], 0, none⟩

/-- The fields of the record of one side. -/
def Row.record? (row : Row) : Side → Option Record
  | .input => some row.fields
  | .join => row.partner.map Partner.fields

/-- The number of the record of one side. -/
def Row.recordNumber (row : Row) : Side → Value
  | .input => .int (Int64.ofNat row.number)
  | .join =>
    match row.partner.bind Partner.number with
    | some number => .int (Int64.ofNat number)
    | none => .null

/-- The number of fields of the record of one side. -/
def Row.fieldCount (row : Row) : Side → Value
  | .input => .int (Int64.ofNat row.fields.length)
  | .join =>
    match row.partner with
    | some ⟨some _, fields⟩ => .int (Int64.ofNat fields.length)
    | _ => .null

namespace Bound

mutual

/-- The value of an expression, with the given values of the parameters of the
enclosing function. -/
def eval (row : Row) (params : List Value) : Bound → Except EvalError Value
  | literal v => .ok v
  | field side position spelling =>
    match (row.record? side).bind fun record => record[position]? with
    | some v => .ok v
    | none => .error (.noSuchColumn spelling)
  | recordNumber side => .ok (row.recordNumber side)
  | fieldCount side => .ok (row.fieldCount side)
  | param slot => .ok (params[slot]?.getD .null)
  | list items => do return .list (← evalAll row params items)
  | binary op left right => do
    let l ← left.eval row params
    match op with
    | .and => if l.isTruthy then right.eval row params else return l
    | .or => if l.isTruthy then return l else right.eval row params
    | op => Value.applyBinary op l (← right.eval row params)
  | unary op operand => do Value.applyUnary op (← operand.eval row params)
  | isNull negated operand => do return .bool ((← operand.eval row params).isNull != negated)
  | choice condition chosen otherwise => do
    if (← condition.eval row params).isTruthy then chosen.eval row params
    else otherwise.eval row params
  | index base i => do
    let b ← base.eval row params
    Value.subscript b (← i.eval row params)
  | call f args => do f.apply (← evalAll row params args)
  | userCall _ (.mk _ body) args => do body.eval row (← evalAll row params args)
  | aggregate _ f _ _ => .error (.misplacedAggregate f.name)
  | unfold _ => .error .misplacedUnfold

/-- The values of some expressions, from left to right. -/
def evalAll (row : Row) (params : List Value) : List Bound → Except EvalError (List Value)
  | [] => .ok []
  | e :: es => do
    let v ← e.eval row params
    return v :: (← evalAll row params es)

end

end Bound

/-- The value of a function for some arguments. -/
def Lambda.apply (row : Row) (f : Lambda) (args : List Value) : Except EvalError Value :=
  if args.length = f.arity then f.body.eval row args
  else .error (.invalidArgument "lambda" (.arity f.arity args.length))

end TableQuery
