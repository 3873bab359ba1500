import TableQuery.Aggregate.Accumulator
import TableQuery.Expression.Evaluation
import TableQuery.Keyed
import TableQuery.Run.Error

/-!
# Groups

Rows with the same key form a group, and each group yields one record. A column is
either an aggregate, which gathers its values over the group, or plain, and then its
value has to be the same in the whole group. The first row of all decides which columns
are aggregates.
-/

namespace TableQuery

/-- A cell of a row that goes into a group. -/
inductive GroupInput where
  /-- A value that is the same in the whole group. -/
  | plain (v : Value)
  /-- A value for an aggregate, and what becomes of its result. -/
  | aggregate (f : Aggregate) (post : Option Lambda) (v : Value)

/-- A row that goes into a group. -/
structure GroupRow where
  /-- The number of the input record that it comes from. -/
  record : Nat
  /-- The key of its group. -/
  key : List Value
  /-- Its cells. -/
  cells : List GroupInput

/-- What a column of all groups is. -/
inductive GroupColumn where
  /-- A value that is the same in a whole group. -/
  | plain
  /-- An aggregate, and what becomes of its result. -/
  | aggregate (f : Aggregate) (post : Option Lambda)

/-- What a group holds for a column. -/
inductive GroupCell where
  /-- The value of the first row. -/
  | plain (v : Value)
  /-- What the aggregate remembers. -/
  | aggregate (acc : Accumulator)

/-- The value of an input cell. -/
def GroupInput.value : GroupInput → Value
  | plain v => v
  | aggregate _ _ v => v

/-- The column that a cell of the first row begins. -/
def GroupInput.column : GroupInput → GroupColumn
  | plain _ => .plain
  | aggregate f post _ => .aggregate f post

/-- What a new group holds for a column, given the cell of its first row. -/
def GroupCell.start : GroupColumn → GroupInput → GroupCell
  | .plain, input => plain input.value
  | .aggregate f _, _ => aggregate (.start f)

/-- The groups of the rows so far. -/
structure Groups where
  /-- What the columns are, once there has been a row. -/
  columns : Option (List GroupColumn)
  /-- What each group holds, by key. -/
  cells : Keyed (List GroupCell)

namespace Groups

variable [Hashing]

/-- No groups. -/
def empty : Groups :=
  ⟨none, []⟩

/-- The number of groups. -/
def count (groups : Groups) : Nat :=
  groups.cells.length

/-- Takes a cell of a row, in the column with the given number. -/
def feedCell (row : GroupRow) (column : Nat) :
    GroupCell → GroupInput → Except DataFault GroupCell
  | .aggregate acc, .aggregate f _ v =>
    if f.skipsNull && v.isNull then .ok (.aggregate acc)
    else ((acc.feed v).map .aggregate).mapError (.atRecord row.record)
  | .plain first, .plain v =>
    if first.same v then .ok (.plain first)
    else .error (.varyingColumn (shownKey row.key) column row.record)
  | _, _ => .error (.varyingShape row.record)

/-- Takes the cells of a row from the column with the given number on. If a cell is
refused, the cells before it have been taken. -/
def feedCells (row : GroupRow) (column : Nat) :
    List GroupCell → List GroupInput → Except DataFault Unit × List GroupCell
  | cell :: cells, input :: inputs =>
    match feedCell row column cell input with
    | .error e => (.error e, cell :: cells)
    | .ok cell =>
      let (outcome, cells) := feedCells row (column + 1) cells inputs
      (outcome, cell :: cells)
  | cells, _ => (.ok (), cells)

/-- Takes a row whose columns are known. -/
def feedRow (groups : Groups) (columns : List GroupColumn) (row : GroupRow) :
    Except DataFault Unit × Groups :=
  let groups := { groups with columns := some columns }
  if columns.length ≠ row.cells.length then
    (.error (.varyingShape row.record), groups)
  else
    let cells :=
      (groups.cells.find? row.key).getD (List.zipWith GroupCell.start columns row.cells)
    let (outcome, cells) := feedCells row 1 cells row.cells
    (outcome, { groups with cells := groups.cells.alter row.key fun _ => cells })

/-- Takes a row. If it is refused, the groups are those after the part of it that has
been taken. -/
def feed (groups : Groups) (row : GroupRow) : Except DataFault Unit × Groups :=
  groups.feedRow (groups.columns.getD (row.cells.map GroupInput.column)) row

/-- The output of a column of a group. -/
def finishCell (key : List Value) : GroupColumn → GroupCell → Except DataFault Value
  | _, .plain v => .ok v
  | .aggregate _ (some post), .aggregate acc =>
    (post.apply Row.empty [acc.result]).mapError (.finalization (shownKey key))
  | _, .aggregate acc => .ok acc.result

/-- The output of the columns of a group. -/
def finishCells (key : List Value) :
    List GroupColumn → List GroupCell → Except DataFault Record
  | column :: columns, cell :: cells => do
    let v ← finishCell key column cell
    return v :: (← finishCells key columns cells)
  | _, _ => .ok []

/-- The groups in the order of their keys. -/
def sorted (groups : Groups) : Keyed (List GroupCell) :=
  groups.cells.mergeSort fun (key, _) (key', _) => Value.cmpList key key' != .gt

/-- One record for each group, in the order of the keys. -/
def finish (groups : Groups) : Except DataFault (List Record) :=
  groups.sorted.mapM fun (key, cells) => finishCells key (groups.columns.getD []) cells

end Groups
end TableQuery
