import TableQuery.Run.Update

/-!
# Running a plan

A run has three phases. The join table is read to its end; then the input is read record
by record, each of which adds its rows to the output; then the output is emptied and
ended. An error in the second phase ends the output without the rows that have been held
back, and the input is closed when no more records are wanted.
-/

namespace TableQuery

/-- What is counted in a run. -/
structure RunStats where
  /-- The number of input records that were pulled. -/
  read : Nat
  /-- The number of records that were written. -/
  written : Nat
  /-- The number of records that were updated. -/
  updated : Nat
  /-- The number of join records. -/
  joined : Nat
  /-- The flaws of the run. -/
  warnings : List String
deriving DecidableEq

/-- How far a run has come. -/
structure Progress (τ : Type) where
  /-- The output. -/
  output : Output τ
  /-- The number of input records that were pulled. -/
  read : Nat
  /-- The number of records that were updated. -/
  updated : Nat
  /-- The number of records in which an absent value was replaced. -/
  nullsReplaced : Nat

namespace Progress

variable {τ : Type} [Hashing] [RecordSink τ]

/-- Before the first record. -/
def start (stages : List Stage) (sink : τ) : Progress τ :=
  ⟨.start stages sink, 0, 0, 0⟩

/-- Writes rows. -/
def writeAll (progress : Progress τ) (rows : List OutputRow) :
    Except RunError Demand × Progress τ :=
  let (outcome, output) := progress.output.writeAll rows
  (outcome, { progress with output })

/-- Writes a record. -/
def write (progress : Progress τ) (record : Record) : Except RunError Demand × Progress τ :=
  progress.writeAll [.plain record]

/-- Counts an updated record. -/
def countUpdate (progress : Progress τ) (updated : Updated) : Progress τ :=
  { progress with
    updated := progress.updated + 1
    nullsReplaced := progress.nullsReplaced + if updated.nullReplaced then 1 else 0 }

/-- The warnings of a run. -/
def warnings (progress : Progress τ) : List String :=
  if progress.nullsReplaced = 0 then []
  else
    ["NULL values assigned by UPDATE were replaced by empty strings in " ++
      s!"{progress.nullsReplaced} records"]

end Progress

namespace Plan

variable {τ : Type} [Hashing] [RecordSink τ]

/-- The rows beside which an input record is looked at: one for each partner, or one
without a partner in a query that does not join. -/
def rowsBeside (index : Option JoinIndex) (record : Record) (number : Nat) :
    Except DataFault (List Row) :=
  match index with
  | none => .ok [⟨record, number, none⟩]
  | some index =>
    (index.lookup record number).map fun partners =>
      partners.map fun partner => ⟨record, number, some partner⟩

/-- Writes what an input record adds to the output beside each partner, until no more is
wanted. -/
def selectRows (plan : Plan) (items : List Projection) :
    List Row → Progress τ → Except RunError Demand × Progress τ
  | [], progress => (.ok .more, progress)
  | row :: rows, progress =>
    match plan.rowsOf items row with
    | .error fault => (.error (.data fault), progress)
    | .ok output =>
      match progress.writeAll output with
      | (.ok .more, progress) => selectRows plan items rows progress
      | other => other

/-- Writes the new record for a row, or the old one if the condition is not met. -/
def updateRow (plan : Plan) (assignments : List Assignment) (row : Row)
    (progress : Progress τ) : Except RunError Demand × Progress τ :=
  match plan.update assignments row with
  | .error fault => (.error (.data fault), progress)
  | .ok none => progress.write row.fields
  | .ok (some updated) => (progress.countUpdate updated).write updated.fields

/-- Updates an input record with its partner, if the query joins. A record without a
partner stays as it is. -/
def updateRecord (plan : Plan) (assignments : List Assignment) (index : Option JoinIndex)
    (record : Record) (number : Nat) (progress : Progress τ) :
    Except RunError Demand × Progress τ :=
  match index with
  | none => plan.updateRow assignments ⟨record, number, none⟩ progress
  | some index =>
    match index.lookupOne record number with
    | .error fault => (.error (.data fault), progress)
    | .ok none => progress.write record
    | .ok (some partner) => plan.updateRow assignments ⟨record, number, some partner⟩ progress

/-- Takes an input record. -/
def takeRecord (plan : Plan) (index : Option JoinIndex) : Consumer (Progress τ) :=
  fun number record progress =>
    let progress := { progress with read := number }
    match plan.statement with
    | .select items =>
      match rowsBeside index record number with
      | .error fault => (.error (.data fault), progress)
      | .ok rows => plan.selectRows items rows progress
    | .update assignments => plan.updateRecord assignments index record number progress

end Plan

/-- What a run has come to. -/
structure RunResult (σ ρ τ : Type) where
  /-- The error that ended it, or what was counted. -/
  outcome : Except RunError RunStats
  /-- The input table after the records that were pulled. -/
  input : σ
  /-- The join table after the records that were pulled. -/
  join : Option ρ
  /-- The sink. -/
  sink : τ

namespace Plan

variable {σ ρ τ : Type} [Hashing] [RecordSource σ] [RecordSource ρ] [RecordSink τ]

/-- Ends the output after the last input record. -/
def finishRun (index : Option JoinIndex) (join : Option ρ) (input : σ)
    (progress : Progress τ) : RunResult σ ρ τ :=
  let (outcome, output) := progress.output.finish
  let stats : RunStats :=
    ⟨progress.read, output.written, progress.updated, (index.map JoinIndex.size).getD 0,
      progress.warnings⟩
  ⟨outcome.map fun _ => stats, input, join, output.outlet.sink⟩

/-- Reads the input with a finished join index. -/
def stream (plan : Plan) (index : Option JoinIndex) (join : Option ρ) (input : σ)
    (sink : τ) : RunResult σ ρ τ :=
  let sink :=
    match plan.header with
    | none => sink
    | some names => RecordSink.announce names sink
  let fed := feed (plan.takeRecord index) 1 input (Progress.start (Stage.ofPlan plan) sink)
  match fed.outcome with
  | .error e =>
    let (_, output) := fed.state.output.abandon
    ⟨.error e, RecordSource.close fed.source, join, output.outlet.sink⟩
  | .ok .stop => finishRun index join (RecordSource.close fed.source) fed.state
  | .ok .more => finishRun index join fed.source fed.state

/-- Runs a plan. -/
def run (plan : Plan) (input : σ) (join : Option ρ) (sink : τ) : RunResult σ ρ τ :=
  match plan.join, join with
  | none, join => plan.stream none join input sink
  | some _, none => ⟨.error (.table .noJoinTable), input, none, sink⟩
  | some spec, some table =>
    let built := JoinIndex.build spec table
    match built.outcome with
    | .error e => ⟨.error e, input, some built.source, sink⟩
    | .ok _ => plan.stream (some built.state) (some built.source) input sink

end Plan

/-- A plan that can be run once. -/
structure Execution where
  /-- The plan. -/
  plan : Plan
  /-- Whether it has been run. -/
  started : Bool

namespace Execution

variable {σ ρ τ : Type} [Hashing] [RecordSource σ] [RecordSource ρ] [RecordSink τ]

/-- The execution of a plan that has not been run. -/
def ofPlan (plan : Plan) : Execution :=
  ⟨plan, false⟩

/-- Runs the plan, unless it has been run before. -/
def run (execution : Execution) (input : σ) (join : Option ρ) (sink : τ) :
    RunResult σ ρ τ × Execution :=
  let result :=
    if execution.started then ⟨.error (.data .alreadyRun), input, join, sink⟩
    else execution.plan.run input join sink
  (result, { execution with started := true })

end Execution
end TableQuery
