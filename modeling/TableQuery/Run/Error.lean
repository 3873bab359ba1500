import TableQuery.Expression.Error
import TableQuery.TableError

/-!
# Errors of a run

Why a query that has been understood cannot be carried out: the data does not fit, or a
table cannot be read or written. Errors of the data name the record at which they arose.
-/

namespace TableQuery

/-- A clause that does not go together with aggregation. -/
inductive AggregateConflict where
  | orderBy
  | distinct
deriving DecidableEq

/-- The keyword of a clause in messages. -/
def AggregateConflict.keyword : AggregateConflict → String
  | orderBy => "ORDER BY"
  | distinct => "DISTINCT"

/-- Why the data does not fit the query. -/
inductive DataFault where
  /-- A record is too short. -/
  | noSuchColumn (name : String) (record : Nat)
  /-- An expression has no value. -/
  | evaluation (record : Nat) (e : EvalError)
  /-- A join record has no key. -/
  | joinKey (record : Nat) (e : EvalError)
  /-- A record does not have exactly one partner. -/
  | strictJoin (key : String) (partners record : Nat)
  /-- A record to update has several partners. -/
  | ambiguousUpdate (key : String) (record : Nat)
  /-- A row has several lists to unfold. -/
  | severalUnfolds (record : Nat)
  /-- A row that goes into a group has a list to unfold. -/
  | unfoldInAggregate (record : Nat)
  /-- Groups are neither ordered nor made distinct. -/
  | conflict (clause : AggregateConflict) (record : Nat)
  /-- A column that is no aggregate differs within a group. -/
  | varyingColumn (key : String) (column record : Nat)
  /-- What becomes of the value of an aggregate cannot be computed. -/
  | finalization (key : String) (e : EvalError)
  /-- Rows that go into groups differ in shape. -/
  | varyingShape (record : Nat)
  /-- The query has been run before. -/
  | alreadyRun
deriving DecidableEq

namespace DataFault

/-- The fault of a record for which an expression has no value. -/
def atRecord (record : Nat) : EvalError → DataFault
  | .noSuchColumn name => noSuchColumn name record
  | e => evaluation record e

/-- A fault of the data in words. -/
def message : DataFault → String
  | noSuchColumn name record => s!"no such column {name} at record {record}"
  | evaluation record e => s!"at record {record}: {e.message}"
  | joinKey record e =>
    s!"unable to compute join key of join table record {record}: {e.message}"
  | strictJoin key partners record =>
    "in \"STRICT LEFT JOIN\" each key in A must have exactly one match in B; " ++
      s!"key {key} has {partners} matches (record {record})"
  | ambiguousUpdate key record =>
    s!"more than one record in UPDATE query matched a key {key} in the join table B " ++
      s!"(record {record})"
  | severalUnfolds record => s!"only one UNFOLD is allowed per SELECT query (record {record})"
  | unfoldInAggregate record =>
    s!"UNFOLD is not allowed in aggregate queries (record {record})"
  | conflict clause record =>
    s!"\"{clause.keyword}\" is not allowed in aggregate queries (record {record})"
  | varyingColumn key column record =>
    s!"invalid aggregate expression: non-constant value in group with key {key} " ++
      s!"(column {column}, record {record})"
  | finalization key e =>
    s!"unable to finalize aggregate for group with key {key}: {e.message}"
  | varyingShape record =>
    s!"aggregate query produced rows of different width at record {record}"
  | alreadyRun => "query execution has already been started"

end DataFault

/-- Why a run fails. -/
inductive RunError where
  /-- The data does not fit the query. -/
  | data (fault : DataFault)
  /-- A table cannot be read or written. -/
  | table (e : TableError)
deriving DecidableEq

/-- An error of a run in words. -/
def RunError.message : RunError → String
  | data fault => fault.message
  | table e => e.message

end TableQuery
