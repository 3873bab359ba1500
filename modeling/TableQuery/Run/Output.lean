import TableQuery.Aggregate.Groups
import TableQuery.Query.Plan
import TableQuery.Table.Basic

/-!
# Output

Rows pass through a chain of stages on their way to a sink. A stage may hold rows back
until the end, as grouping and sorting do, or let only some of them pass. At the end the
stages are emptied from front to back, and what each of them held passes through the
stages after it.
-/

namespace TableQuery

/-- A row on its way to the sink. -/
inductive OutputRow where
  /-- A record. -/
  | plain (record : Record)
  /-- A record with the values that it is ordered by. -/
  | keyed (key : List Value) (record : Record)
  /-- A row that goes into a group. -/
  | grouped (row : GroupRow)

/-- The record of a row. A row that goes into a group has none. -/
def OutputRow.record : OutputRow → Except DataFault Record
  | plain record => .ok record
  | keyed _ record => .ok record
  | grouped row => .error (.varyingShape row.record)

/-- The values that a row is ordered by. -/
def OutputRow.key : OutputRow → List Value
  | keyed key _ => key
  | _ => []

/-- A stage of the output. -/
inductive Stage where
  /-- Groups, and the clause that does not go together with them. -/
  | groups (groups : Groups) (conflict : Option AggregateConflict)
  /-- Records with the values that they are ordered by, latest first. -/
  | sorted (reverse : Bool) (latest : List (List Value × Record))
  /-- The different records so far, each of which has passed. -/
  | unique (seen : Keyed Unit)
  /-- The different records so far with their numbers, none of which has passed. -/
  | counted (seen : Keyed Nat)
  /-- A limit, and the number of rows that have passed. -/
  | top (limit passed : Nat)

/-- What becomes of a row. -/
inductive Flow where
  /-- It passes. -/
  | forward (row : OutputRow)
  /-- It passes and is the last one to pass. -/
  | last (row : OutputRow)
  /-- It is held back or left out. -/
  | kept
  /-- It is left out, as all later ones will be. -/
  | closed

/-- A row that passes, as the last one to pass. -/
def Flow.asLast : Flow → Flow
  | forward row => last row
  | other => other

namespace Stage

variable [Hashing]

/-- Puts a row into its group. -/
def acceptGroup (held : Groups) (conflict : Option AggregateConflict) (row : GroupRow) :
    Except DataFault Flow × Stage :=
  match conflict with
  | some clause => (.error (.conflict clause row.record), groups held conflict)
  | none =>
    let (outcome, held) := held.feed row
    (outcome.map fun _ => .kept, groups held conflict)

/-- Lets a row through unless it has been seen. -/
def acceptUnique (seen : Keyed Unit) (record : Record) : Flow × Stage :=
  if seen.contains record then (.kept, unique seen)
  else (.forward (.plain record), unique (seen.alter record fun _ => ()))

/-- Lets a row through below the limit. -/
def acceptTop (limit passed : Nat) (row : OutputRow) : Flow × Stage :=
  if limit ≤ passed then (.closed, top limit passed)
  else if passed + 1 = limit then (.last row, top limit (passed + 1))
  else (.forward row, top limit (passed + 1))

/-- Takes a row. -/
def accept (row : OutputRow) (stage : Stage) : Except DataFault Flow × Stage :=
  match stage with
  | .groups held conflict =>
    match row with
    | .grouped row => acceptGroup held conflict row
    | row => (.ok (.forward row), stage)
  | .sorted reverse latest =>
    match row.record with
    | .error e => (.error e, stage)
    | .ok record => (.ok .kept, .sorted reverse ((row.key, record) :: latest))
  | .unique seen =>
    match row.record with
    | .error e => (.error e, stage)
    | .ok record =>
      let (flow, stage) := acceptUnique seen record
      (.ok flow, stage)
  | .counted seen =>
    match row.record with
    | .error e => (.error e, stage)
    | .ok record => (.ok .kept, .counted (seen.alter record fun n => n.getD 0 + 1))
  | .top limit passed =>
    let (flow, stage) := acceptTop limit passed row
    (.ok flow, stage)

/-- Records in the order of their keys, ascending or descending. Records with equal keys
stay in the order in which they came. -/
def inOrder (reverse : Bool) (rows : List (List Value × Record)) :
    List (List Value × Record) :=
  rows.mergeSort fun (key, _) (key', _) =>
    if reverse then Value.cmpList key key' != .lt else Value.cmpList key key' != .gt

/-- A record after the number of its copies. -/
def withCount (count : Nat) (record : Record) : Record :=
  .int (Int64.ofNat count) :: record

/-- The records that a stage has held back, and the stage without them. -/
def drain : Stage → Except DataFault (List Record) × Stage
  | .groups held conflict => (held.finish, .groups .empty conflict)
  | .sorted reverse latest =>
    (.ok ((inOrder reverse latest.reverse).map fun (_, record) => record), .sorted reverse [])
  | .counted seen =>
    (.ok (seen.map fun (record, count) => withCount count record), .counted [])
  | .unique seen => (.ok [], .unique seen)
  | .top limit passed => (.ok [], .top limit passed)

/-- Takes a row through a chain of stages. -/
def acceptAll (row : OutputRow) : List Stage → Except DataFault Flow × List Stage
  | [] => (.ok (.forward row), [])
  | stage :: stages =>
    match stage.accept row with
    | (.ok (.forward row), stage) =>
      let (outcome, stages) := acceptAll row stages
      (outcome, stage :: stages)
    | (.ok (.last row), stage) =>
      let (outcome, stages) := acceptAll row stages
      (outcome.map Flow.asLast, stage :: stages)
    | (outcome, stage) => (outcome, stage :: stages)

/-- The stages that a plan needs, from front to back. -/
def ofPlan (plan : Plan) : List Stage :=
  let conflict :=
    if plan.orderBy.isSome then some AggregateConflict.orderBy
    else if plan.distinct ≠ .no then some AggregateConflict.distinct
    else none
  let grouping := if plan.isAggregate then [groups .empty conflict] else []
  let sorting := if plan.orderBy.isSome then [sorted plan.reverse []] else []
  let distinction :=
    match plan.distinct with
    | .no => []
    | .yes => [unique []]
    | .counted => [counted []]
  let limiting :=
    match plan.limit with
    | none => []
    | some limit => [top limit 0]
  grouping ++ sorting ++ distinction ++ limiting

end Stage

/-- A sink, and what is known of it. -/
structure Outlet (σ : Type) where
  /-- The sink. -/
  sink : σ
  /-- Whether the sink wants no more records. -/
  full : Bool
  /-- The number of records that have been written. -/
  written : Nat

namespace Outlet

variable {σ : Type} [RecordSink σ]

/-- Writes a row unless the sink wants no more. -/
def write (outlet : Outlet σ) (row : OutputRow) : Except RunError Demand × Outlet σ :=
  if outlet.full then
    (.ok .stop, outlet)
  else
    match row.record with
    | .error fault => (.error (.data fault), outlet)
    | .ok record =>
      match RecordSink.write record outlet.sink with
      | (.error e, sink) => (.error (.table e), { outlet with sink })
      | (.ok demand, sink) =>
        (.ok demand, ⟨sink, demand = .stop, outlet.written + 1⟩)

/-- Writes a row that has passed the stages. -/
def receive (outlet : Outlet σ) : Flow → Except RunError Demand × Outlet σ
  | .forward row => outlet.write row
  | .last row =>
    let (outcome, outlet) := outlet.write row
    (outcome.map fun _ => .stop, outlet)
  | .kept => (.ok .more, outlet)
  | .closed => (.ok .stop, outlet)

end Outlet

/-- A chain of stages and the sink behind it. -/
structure Output (σ : Type) where
  /-- The stages, from front to back. -/
  stages : List Stage
  /-- The sink. -/
  outlet : Outlet σ
  /-- Whether the output has ended. -/
  finished : Bool

namespace Output

variable {σ : Type} [Hashing] [RecordSink σ]

/-- The output to a sink through the given stages. -/
def start (stages : List Stage) (sink : σ) : Output σ :=
  ⟨stages, ⟨sink, false, 0⟩, false⟩

/-- The number of records that have been written. -/
def written (output : Output σ) : Nat :=
  output.outlet.written

/-- Sends a row through some stages to the sink. -/
def pass (row : OutputRow) (stages : List Stage) (outlet : Outlet σ) :
    Except RunError Demand × List Stage × Outlet σ :=
  match Stage.acceptAll row stages with
  | (.error fault, stages) => (.error (.data fault), stages, outlet)
  | (.ok flow, stages) =>
    let (outcome, outlet) := outlet.receive flow
    (outcome, stages, outlet)

/-- Sends rows through some stages to the sink, until no more are wanted. -/
def passAll : List OutputRow → List Stage → Outlet σ →
    Except RunError Demand × List Stage × Outlet σ
  | [], stages, outlet => (.ok .more, stages, outlet)
  | row :: rows, stages, outlet =>
    match pass row stages outlet with
    | (.ok .more, stages, outlet) => passAll rows stages outlet
    | other => other

/-- Sends a row to the sink. -/
def write (output : Output σ) (row : OutputRow) : Except RunError Demand × Output σ :=
  let (outcome, stages, outlet) := pass row output.stages output.outlet
  (outcome, { output with stages, outlet })

/-- Sends rows to the sink, until no more are wanted. -/
def writeAll (output : Output σ) (rows : List OutputRow) :
    Except RunError Demand × Output σ :=
  let (outcome, stages, outlet) := passAll rows output.stages output.outlet
  (outcome, { output with stages, outlet })

omit [RecordSink σ] in
theorem length_acceptAll (row : OutputRow) (stages : List Stage) :
    (Stage.acceptAll row stages).2.length = stages.length := by
  fun_induction Stage.acceptAll row stages with
  | case1 => rfl
  | case2 _ _ _ _ _ _ _ _ heq ih => simp_all
  | case3 _ _ _ _ _ _ _ _ heq ih => simp_all
  | case4 => simp

theorem length_pass (row : OutputRow) (stages : List Stage) (outlet : Outlet σ) :
    (pass row stages outlet).2.1.length = stages.length := by
  have h := length_acceptAll row stages
  unfold pass
  split <;> simp_all

theorem length_passAll (rows : List OutputRow) (stages : List Stage) (outlet : Outlet σ) :
    (passAll rows stages outlet).2.1.length = stages.length := by
  induction rows generalizing stages outlet with
  | nil => rfl
  | cons row rows ih =>
    have h := length_pass row stages outlet
    unfold passAll
    split
    · next heq => rw [heq] at h; rw [ih]; exact h
    · exact h

/-- Empties some stages from front to back. -/
def drainAll (stages : List Stage) (outlet : Outlet σ) :
    Except RunError Unit × List Stage × Outlet σ :=
  match stages with
  | [] => (.ok (), [], outlet)
  | stage :: stages =>
    match stage.drain with
    | (.error fault, stage) => (.error (.data fault), stage :: stages, outlet)
    | (.ok records, stage) =>
      match _ : passAll (records.map OutputRow.plain) stages outlet with
      | (.error e, stages, outlet) => (.error e, stage :: stages, outlet)
      | (.ok _, stages, outlet) =>
        let (outcome, stages, outlet) := drainAll stages outlet
        (outcome, stage :: stages, outlet)
termination_by stages.length
decreasing_by
  next heq =>
    have h := congrArg (fun result => result.2.1.length) heq
    simp only [length_passAll] at h
    simp [h]

/-- Ends the output of the sink. -/
def finishSink (output : Output σ) : Except RunError Unit × Output σ :=
  let (outcome, sink) := RecordSink.finish output.outlet.sink
  (outcome.mapError .table,
    { output with outlet := { output.outlet with sink }, finished := true })

/-- Empties all stages and ends the output, also if a stage cannot be emptied. -/
def finish (output : Output σ) : Except RunError Unit × Output σ :=
  if output.finished then
    (.ok (), output)
  else
    let (drained, stages, outlet) := drainAll output.stages output.outlet
    let (finished, output) := { output with stages, outlet }.finishSink
    (drained.bind fun _ => finished, output)

/-- Ends the output without the rows that have been held back. -/
def abandon (output : Output σ) : Except RunError Unit × Output σ :=
  if output.finished then (.ok (), output) else { output with stages := [] }.finishSink

end Output
end TableQuery
