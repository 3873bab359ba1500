import TableQuery.Run.JoinIndex
import TableQuery.Run.Output

/-!
# Rows from records

What an input record and a partner of it add to the output: no row if the condition is
not met, and otherwise the fields that the select list asks for. A list to unfold makes
a row of each of its items. For groups the values of the aggregates are set apart.
-/

namespace TableQuery

/-- The value of an expression for a row. -/
def Row.eval (row : Row) (e : Bound) : Except DataFault Value :=
  (e.eval row []).mapError (.atRecord row.number)

/-- The values of some expressions for a row. -/
def Row.evalAll (row : Row) (es : List Bound) : Except DataFault (List Value) :=
  (Bound.evalAll row [] es).mapError (.atRecord row.number)

/-- The fields of the join record, if there is one. -/
def Row.partnerFields (row : Row) : Record :=
  match row.partner with
  | some partner => partner.fields
  | none => []

/-- A row of output, and the list whose items are to take the place of one of its
fields. -/
structure Projected where
  /-- The fields. -/
  fields : Record
  /-- The index of the field, and the list. -/
  unfolded : Option (Nat × List Value)

namespace Projected

/-- The records that a row stands for. -/
def records (projected : Projected) : List Record :=
  match projected.unfolded with
  | none => [projected.fields]
  | some (position, items) => items.map fun item => projected.fields.set position item

end Projected

namespace Plan

/-- Whether a row meets the condition. -/
def selects (plan : Plan) (row : Row) : Except DataFault Bool :=
  match plan.condition with
  | none => .ok true
  | some condition => (row.eval condition).map Value.isTruthy

/-- The fields that a star stands for. -/
def starFields (plan : Plan) (row : Row) : Star → Record
  | .all => row.fields ++ row.partnerFields
  | .input =>
    match plan.exclusion with
    | none => row.fields
    | some excluded => without excluded row.fields
  | .join => row.partnerFields

/-- Adds an item of the select list to a row of output. -/
def project (plan : Plan) (row : Row) (projected : Projected) :
    Projection → Except DataFault Projected
  | .star source =>
    .ok { projected with fields := projected.fields ++ plan.starFields row source }
  | .value (.unfold e) =>
    if projected.unfolded.isSome then
      .error (.severalUnfolds row.number)
    else do
      match ← row.eval e with
      | .list items =>
        let position := projected.fields.length
        return ⟨projected.fields ++ [.null], some (position, items)⟩
      | v =>
        throw (.atRecord row.number (.invalidArgument "UNFOLD" (.notList v.typeName)))
  | .value e => do
    return { projected with fields := projected.fields ++ [← row.eval e] }

/-- What an item of the select list adds to a row that goes into a group. -/
def groupInputs (plan : Plan) (row : Row) : Projection → Except DataFault (List GroupInput)
  | .star source => .ok ((plan.starFields row source).map .plain)
  | .value (.aggregate _ f arg post) => do return [.aggregate f post (← row.eval arg)]
  | .value (.unfold _) => .error (.unfoldInAggregate row.number)
  | .value e => do return [.plain (← row.eval e)]

/-- The key of the group of a row. Without a group clause there is one group. -/
def groupKey (plan : Plan) (row : Row) : Except DataFault (List Value) :=
  match plan.groupBy with
  | none => .ok [.null]
  | some keys => row.evalAll keys

/-- The row that goes into a group. -/
def groupRow (plan : Plan) (items : List Projection) (row : Row) :
    Except DataFault GroupRow := do
  let cells ← items.mapM (plan.groupInputs row)
  return ⟨row.number, ← plan.groupKey row, cells.flatten⟩

/-- The rows of output, each with the values that it is ordered by. -/
def outputRows (plan : Plan) (items : List Projection) (row : Row) :
    Except DataFault (List OutputRow) := do
  let projected ← items.foldlM (plan.project row) ⟨[], none⟩
  match plan.orderBy with
  | none => return projected.records.map .plain
  | some keys =>
    let key ← row.evalAll keys
    return projected.records.map (.keyed key)

/-- The rows that an input record and a partner add to the output. -/
def rowsOf (plan : Plan) (items : List Projection) (row : Row) :
    Except DataFault (List OutputRow) := do
  if ← plan.selects row then
    if plan.isAggregate then return [.grouped (← plan.groupRow items row)]
    else plan.outputRows items row
  else
    return []

end Plan
end TableQuery
