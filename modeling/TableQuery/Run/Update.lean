import TableQuery.Run.Projection

/-!
# Updated records

An update clause gives new values to fields of the input record. All of them are computed
from the record as it was read; if a field is assigned twice the last value counts. An
absent value becomes an empty text.
-/

namespace TableQuery

/-- A record with new values, and whether one of them was absent. -/
structure Updated where
  /-- The fields. -/
  fields : Record
  /-- Whether an absent value was assigned. -/
  nullReplaced : Bool

/-- The value that is stored when `v` is assigned. -/
def storedValue (v : Value) : Value :=
  if v.isNull then .text "" else v

/-- Carries out an assignment. -/
def assign (row : Row) (updated : Updated) (assignment : Assignment) :
    Except DataFault Updated :=
  if assignment.index < updated.fields.length then do
    let v ← row.eval assignment.value
    return ⟨updated.fields.set assignment.index (storedValue v),
      updated.nullReplaced || v.isNull⟩
  else
    .error (.noSuchColumn s!"a{assignment.index + 1}" row.number)

/-- Carries out assignments. -/
def assignAll (row : Row) (assignments : List Assignment) : Except DataFault Updated :=
  assignments.foldlM (assign row) ⟨row.fields, false⟩

/-- The new record, if the row meets the condition of the plan. -/
def Plan.update (plan : Plan) (assignments : List Assignment) (row : Row) :
    Except DataFault (Option Updated) := do
  if ← plan.selects row then return some (← assignAll row assignments) else return none

end TableQuery
