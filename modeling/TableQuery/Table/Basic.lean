import TableQuery.TableError
import TableQuery.Value

/-!
# Tables

Records are pulled one by one from a source and written one by one to a sink. Both may
fail, both may warn of flaws that do not stop them, and a sink may want no more records.
A source holds a bound on the number of its records, so that it can be read to its end.
-/

namespace TableQuery

/-- Whether more records are wanted. -/
inductive Demand where
  | more
  | stop
deriving DecidableEq

/-- Where records are pulled from. -/
class RecordSource (σ : Type) where
  /-- The names of the columns, if the table has a header. -/
  header : σ → Option (List String)
  /-- The next record, or none at the end of the table, and the source after it. -/
  next : σ → Except TableError (Option Record) × σ
  /-- The source without the records that have not been pulled. -/
  close : σ → σ
  /-- The flaws of the records so far. -/
  warnings : σ → List String
  /-- A bound on the number of records that have not been pulled. -/
  remaining : σ → Nat
  /-- The bound falls with every record. -/
  remaining_lt {s s' : σ} {record : Record} (h : next s = (.ok (some record), s')) :
    remaining s' < remaining s

/-- Where records are written to. -/
class RecordSink (σ : Type) where
  /-- Tells the names of the columns, before the first record. -/
  announce : List String → σ → σ
  /-- Writes a record and says whether more are wanted. -/
  write : Record → σ → Except TableError Demand × σ
  /-- Ends the output. -/
  finish : σ → Except TableError Unit × σ
  /-- The flaws of the output so far. -/
  warnings : σ → List String

end TableQuery
