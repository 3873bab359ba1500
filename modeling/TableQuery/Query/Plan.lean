import TableQuery.Query.Assignments
import TableQuery.Query.JoinSpec
import TableQuery.Text.Word

/-!
# Plans

A plan is a query in the form in which it is carried out: its clauses, their
expressions bound to the columns of the tables. `COUNT(*)` counts rows, so it is read
as `COUNT(1)`. The header of the output is known when the headers of the tables that
it takes its columns from are.
-/

namespace TableQuery

/-- What an item of a select list adds to a row. -/
inductive Projection where
  /-- All fields of a record. -/
  | star (source : Star)
  /-- The value of an expression. -/
  | value (e : Bound)

/-- What becomes of an input record. -/
inductive Statement where
  /-- A row with the given items. -/
  | select (items : List Projection)
  /-- The record itself, with new values for some of its fields. -/
  | update (assignments : List Assignment)

/-- A query whose expressions are bound. -/
structure Plan where
  /-- What becomes of an input record. -/
  statement : Statement
  /-- The condition that records have to meet. -/
  condition : Option Bound
  /-- The table that the input is joined with. -/
  join : Option JoinSpec
  /-- The expressions that rows are ordered by. -/
  orderBy : Option (List Bound)
  /-- Whether the order is descending. -/
  reverse : Bool
  /-- The expressions that rows are grouped by. -/
  groupBy : Option (List Bound)
  /-- What happens to equal rows. -/
  distinct : Distinct
  /-- The number of rows that may be written. -/
  limit : Option Nat
  /-- The fields of the input record that are left out. -/
  exclusion : Option (List Nat)
  /-- The number of aggregates in the select list. -/
  aggregates : Nat
  /-- The names of the output columns. -/
  header : Option (List String)

/-- Whether an item of a select list is an aggregate. -/
def Projection.isAggregate : Projection → Bool
  | star _ => false
  | value e => e.isAggregate

/-- Whether records are updated. -/
def Statement.isUpdate : Statement → Bool
  | select _ => false
  | update _ => true

/-- Whether an item of the select list is an aggregate. -/
def Statement.hasAggregate : Statement → Bool
  | select items => items.any Projection.isAggregate
  | update _ => false

namespace Plan

/-- Whether records are updated. -/
def isUpdate (plan : Plan) : Bool :=
  plan.statement.isUpdate

/-- Whether rows are grouped. -/
def isAggregate (plan : Plan) : Bool :=
  plan.groupBy.isSome || plan.statement.hasAggregate

/-- The text after `COUNT(*)` at the start of a text, which may have spaces before and
inside its brackets. -/
def dropCountStar? (s : List Char) : Option (List Char) := do
  let spaced := fun (s : List Char) => s.dropWhile (· == ' ')
  let s ← ['('].isPrefixOf? (spaced (← Text.dropWord? "COUNT".toList s))
  let s ← ['*'].isPrefixOf? (spaced s)
  [')'].isPrefixOf? (spaced s)

/-- The text with `COUNT(1)` in place of `COUNT(*)`. The first `skip` characters have
been replaced; `inWord` says whether a word goes on at the start of the text. -/
def countRowsFrom (inWord : Bool) (skip : Nat) : List Char → List Char
  | [] => []
  | c :: s =>
    if 0 < skip then
      countRowsFrom false (skip - 1) s
    else
      match if inWord then none else dropCountStar? (c :: s) with
      | some rest => "COUNT(1)".toList ++ countRowsFrom false (s.length - rest.length) s
      | none => c :: countRowsFrom (Text.isWord c) 0 s

/-- The text with `COUNT(1)` in place of `COUNT(*)`. -/
def countRows (text : List Char) : List Char :=
  countRowsFrom false 0 text

/-- The name of the table that a query joins. -/
def joinTable? (query : List Char) : Except QueryFault (Option String) := do
  let isolated ← IsolatedQuery.ofQuery query
  let clauses ← Clauses.locate isolated.text
  match clauses.join with
  | none => return none
  | some clause => return some (← JoinSpec.readTable isolated clause.text).1

/-- The columns that a query with the given clauses can refer to. -/
def visibleColumns (clauses : Clauses) (input : ColumnMap) (join : Option ColumnMap) :
    Except QueryFault QueryColumns :=
  match clauses.join, join with
  | none, _ => .ok ⟨input, none⟩
  | some _, none => .error (.join .unavailable)
  | some _, some join => do
    ColumnMap.checkAmbiguity input join
    return ⟨input, some join⟩

/-- The names of the columns that an item adds to the output, after some others. -/
def itemHeader? (columns : QueryColumns) (before : List String) :
    SelectItem × Projection → Option (List String)
  | (.star source, _) => do
    let joined := columns.join.isSome
    let input ← if source == .all || source == .input then columns.input.header else some []
    let join ←
      if source == .join || source == .all && joined then
        columns.join.bind ColumnMap.header
      else
        some []
    return input ++ join
  | (.column _ (some name), _) => some [name]
  | (_, .value (.field side index spelling)) =>
    let table? :=
      match side with
      | .input => some columns.input
      | .join => columns.join
    some [(table?.bind fun table => table.columnName? index).getD spelling]
  | _ => some [s!"col{before.length + 1}"]

/-- The names of the output columns for a select list, unless the tables lack
headers. -/
def selectHeader? (columns : QueryColumns) (distinct : Distinct)
    (items : List (SelectItem × Projection)) : Option (List String) :=
  let named := columns.input.header.isSome || (columns.join.bind ColumnMap.header).isSome
  let start := if distinct = .counted then ["count"] else []
  if named then
    items.foldlM (fun header item => (itemHeader? columns header item).map (header ++ ·)) start
  else
    none

/-- The items of a list whose indices are not among the given ones. -/
def without {α : Type} (indices : List Nat) (items : List α) : List α :=
  (items.zipIdx.filter fun (_, i) => !indices.contains i).map fun (item, _) => item

/-- The statement of a query, the fields that it leaves out and its output header. -/
abbrev Body := Statement × Option (List Nat) × Option (List String)

/-- Binds an item of a select list. -/
def bindItem (names : Names) : SelectItem → Binding Projection
  | .star source =>
    if source == .join && (names.table? .join).isNone then throw (.noJoin source.spelling)
    else return .star source
  | .column e _ => return .value (← e.bind names)

/-- Reads a select list with some columns left out. -/
def readExclusion (query : IsolatedQuery) (columns : QueryColumns) (names : Names)
    (select exclusion : List Char) : Binding Body := do
  if select ≠ ['*'] then throw (.exclusion .selection)
  let excluded ← Assignment.readColumns query names exclusion
  return (.select [.star .input], some excluded, columns.input.header.map (without excluded))

/-- Reads a select list. -/
def readItems (query : IsolatedQuery) (columns : QueryColumns) (names : Names)
    (select : SelectClause) : Binding Body := do
  let items ← query.readSelect select.text
  let projections ← items.mapM (bindItem names)
  let header := selectHeader? columns select.distinct (items.zip projections)
  return (.select projections, none, header)

/-- Reads the statement of a query. -/
def readBody (query : IsolatedQuery) (columns : QueryColumns) (names : Names)
    (clauses : Clauses) : Binding Body := do
  match clauses.select, clauses.exclusion, clauses.update with
  | some select, some exclusion, _ => readExclusion query columns names select.text exclusion
  | some select, none, _ => readItems query columns names select
  | none, _, some update =>
    return (.update (← Assignment.readAll query names update), none, columns.input.header)
  | none, _, none => throw .noStatement

/-- Reads the expressions of a clause, if it is there. -/
def readList (query : IsolatedQuery) (names : Names) (kind : ClauseKind) :
    Option (List Char) → Binding (Option (List Bound))
  | none => return none
  | some text => do return some (← (← query.readExprs kind text).mapM (Expr.bind names))

/-- Reads the condition of a query, if it has one. -/
def readCondition (query : IsolatedQuery) (names : Names) :
    Option (List Char) → Binding (Option Bound)
  | none => return none
  | some text => do return some (← query.bindExpr names .condition text)

/-- Reads the join clause of a query, if it has one. -/
def readJoin (query : IsolatedQuery) (names : Names) :
    Option JoinClause → Binding (Option JoinSpec)
  | none => return none
  | some clause => do return some (← JoinSpec.read query names clause)

/-- Reads the clauses of a query. -/
def readClauses (query : IsolatedQuery) (columns : QueryColumns) (scope : Scope)
    (clauses : Clauses) : Binding Plan := do
  let names := Names.ofQuery columns scope
  let (statement, exclusion, header) ← readBody query columns names clauses
  let aggregates ← get
  let join ← readJoin query names clauses.join
  let condition ← readCondition query names clauses.condition
  let orderBy ← readList query names .orderBy (clauses.orderBy.map OrderClause.text)
  let groupBy ← readList query names .groupBy clauses.groupBy
  return {
    statement, condition, join, orderBy, groupBy, exclusion, aggregates, header
    reverse := clauses.orderBy.any OrderClause.reverse
    distinct := (clauses.select.map SelectClause.distinct).getD .no
    limit := clauses.rowLimit }

/-- The plan for a query over tables with the given columns. There are columns of a join
table only if there is such a table. -/
def ofQuery (query : List Char) (input : ColumnMap) (join : Option ColumnMap)
    (scope : Scope) : Except QueryFault Plan := do
  let isolated ← IsolatedQuery.ofQuery query
  let isolated := { isolated with text := countRows isolated.text }
  let clauses ← Clauses.locate isolated.text
  let columns ← visibleColumns clauses input join
  (readClauses isolated columns scope clauses).run' 0

end Plan
end TableQuery
