import TableQuery.Query.Definitions
import TableQuery.Run.Execution
import TableQuery.Table.Directory
import TableQuery.Table.Memory
import TableQuery.Table.Writer

/-!
# Running queries

A query is run over an input table, and over a join table from a catalog if it names
one. Definitions are read first, then the join table is opened, then the query is
understood; only after that are records read and written. A run ends with a report or
with one error.
-/

namespace TableQuery

/-- Why a query has no result. -/
inductive QueryError where
  /-- The definitions are refused. -/
  | definitions (fault : DefinitionFault)
  /-- The query is refused. -/
  | query (fault : QueryFault)
  /-- A table cannot be opened, or the run fails. -/
  | run (e : RunError)
deriving DecidableEq

/-- Why a query has no result, in words. -/
def QueryError.message : QueryError → String
  | definitions fault => fault.message
  | query fault => fault.message
  | run e => e.message

/-- The kinds of errors. -/
inductive ErrorKind where
  /-- The definitions are refused. -/
  | definitions
  /-- The query is refused. -/
  | query
  /-- The data does not fit the query. -/
  | data
  /-- A table cannot be opened, read or written. -/
  | table
deriving DecidableEq

/-- The kind of an error. -/
def QueryError.kind : QueryError → ErrorKind
  | definitions _ => .definitions
  | query _ => .query
  | run (.data _) => .data
  | run (.table _) => .table

/-- The error of a table that cannot be opened. -/
def QueryError.ofTable (e : TableError) : QueryError :=
  run (.table e)

/-- What is said of a query that has been carried out. -/
structure QueryReport where
  /-- The flaws of the tables, of the run and of the output. -/
  warnings : List String
  /-- The number of input records that were pulled. -/
  read : Nat
  /-- The number of records that were written. -/
  written : Nat
  /-- The number of records that were updated. -/
  updated : Nat
  /-- The names of the output columns. -/
  header : Option (List String)

/-- The tables that a query can join, by name. -/
abbrev Catalog (σ : Type) := String → Except TableError σ

/-- The catalog of the given tables, each of which is opened by `openTable`. -/
def Catalog.ofList {α σ : Type} (openTable : α → Except TableError σ)
    (tables : List (String × α)) : Catalog σ :=
  fun name =>
    match tables.lookup name with
    | some table => openTable table
    | none => .error (.missingJoinTable name)

/-- The catalog of the files of a directory, found by their paths and read in the given
format. -/
def Catalog.ofDirectory (directory : Directory) (format : TableFormat) :
    Catalog DelimitedReader :=
  fun path => do DelimitedReader.start format (← directory.linesAt path)

/-- What is at hand before a query is understood. -/
structure OpenedQuery (ρ : Type) where
  /-- The defined names. -/
  scope : Scope
  /-- The name of the join table, and the table. -/
  join : Option (String × ρ)

/-- What a query has come to. -/
structure QueryResult (σ ρ τ : Type) where
  /-- The error, or the report. -/
  outcome : Except QueryError QueryReport
  /-- The input table after the records that were pulled. -/
  input : σ
  /-- The join table after the records that were pulled, if it was opened. -/
  join : Option ρ
  /-- The sink. -/
  sink : τ

/-- The names that are defined for a query. -/
def QuerySettings.scope (settings : QuerySettings) : Except QueryError Scope :=
  match settings.initCode with
  | none => .ok Scope.empty
  | some code => (Scope.ofCode code.toList).mapError .definitions

/-- Opens the table with the given name, if a table is named. -/
def Catalog.openNamed {ρ : Type} (catalog : Catalog ρ) :
    Option String → Except QueryError (Option (String × ρ))
  | none => .ok none
  | some name => ((catalog name).mapError .ofTable).map fun table => some (name, table)

/-- Reads the definitions for a query and opens the table that it joins. -/
def openQuery {ρ : Type} (settings : QuerySettings) (query : List Char) (catalog : Catalog ρ) :
    Except QueryError (OpenedQuery ρ) := do
  let scope ← settings.scope
  let name? ← (Plan.joinTable? query).mapError .query
  return ⟨scope, ← catalog.openNamed name?⟩

/-- Understands a query over tables with the given headers. There is a header of a join
table, which may lack names, only if there is such a table. -/
def planQuery (query : List Char) (scope : Scope) (input : Option (List String))
    (join : Option (Option (List String))) : Except QueryError Plan := do
  let input ← (ColumnMap.ofQuery query .input input).mapError .query
  let join ← join.mapM fun header => (ColumnMap.ofQuery query .join header).mapError .query
  (Plan.ofQuery query input join scope).mapError .query

section Run

variable {σ ρ τ : Type} [Hashing] [RecordSource σ] [RecordSource ρ] [RecordSink τ]

/-- The warnings of a table, each after the name of the table. -/
def labelled (name : String) (table : ρ) : List String :=
  (RecordSource.warnings table).map fun warning => s!"{name}: {warning}"

/-- Runs a query that has been understood. -/
def runPlan (settings : QuerySettings) (plan : Plan) (input : σ) (join : Option (String × ρ))
    (sink : τ) : QueryResult σ ρ τ :=
  let name := (join.map Prod.fst).getD ""
  let result := plan.run input (join.map Prod.snd) sink
  let report := fun (stats : RunStats) =>
    let joinWarnings := (result.join.map (labelled name)).getD []
    (⟨labelled settings.inputName result.input ++ joinWarnings ++ stats.warnings ++
        RecordSink.warnings result.sink,
      stats.read, stats.written, stats.updated, plan.header⟩ : QueryReport)
  ⟨(result.outcome.map report).mapError .run, result.input, result.join, result.sink⟩

/-- Runs a query over an input table. -/
def runQuery (settings : QuerySettings) (query : List Char) (input : σ) (catalog : Catalog ρ)
    (sink : τ) : QueryResult σ ρ τ :=
  match openQuery settings query catalog with
  | .error e => ⟨.error e, input, none, sink⟩
  | .ok opened =>
    let join := opened.join.map Prod.snd
    match planQuery query opened.scope (RecordSource.header input)
        (join.map RecordSource.header) with
    | .error e => ⟨.error e, input, join, sink⟩
    | .ok plan => runPlan settings plan input opened.join sink

/-- Runs a query over delimited text. Without a report there is still the output that was
written before the error. -/
def runOnText (settings : QuerySettings) (query : List Char) (inputFormat : TableFormat)
    (lines : List InputLine) (catalog : Catalog ρ) (outputFormat : TableFormat) :
    Except QueryError QueryReport × List Char :=
  match DelimitedReader.start inputFormat lines, DelimitedWriter.start outputFormat with
  | .error e, _ => (.error (.ofTable e), [])
  | .ok _, .error e => (.error (.ofTable e), [])
  | .ok reader, .ok writer =>
    let result := runQuery settings query reader catalog writer
    (result.outcome, result.sink.text)

/-- Runs a query over a table in memory. -/
def runOnTable (settings : QuerySettings) (query : List Char) (input : MemoryTable)
    (catalog : Catalog ρ) : Except QueryError (List Record × QueryReport) :=
  let result := runQuery settings query input catalog (MemorySink.empty none)
  result.outcome.map fun report => (result.sink.records, report)

end Run
end TableQuery
