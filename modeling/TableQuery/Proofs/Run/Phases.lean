import TableQuery.Proofs.Except
import TableQuery.Run.Execution

/-!
# The phases of a run

A plan is run by reading its input with the index of its join table, if it joins one, into
a sink that has been told the names of the columns.  When the input has been read, the
output is ended; a run without an error has passed through both phases.
-/

namespace TableQuery
namespace Plan

variable [Hashing]

/-- The index in which a plan looks for partners: there is none in a query that does not
join, and otherwise it has been built of the join table. -/
def JoinsBy {ρ : Type} [RecordSource ρ] (plan : Plan) (join : Option ρ) :
    Option JoinIndex → Prop
  | none => plan.join = none
  | some index => ∃ spec table demand, plan.join = some spec ∧ join = some table ∧
      (JoinIndex.build spec table).outcome = .ok demand ∧
      (JoinIndex.build spec table).state = index

/-- A sink that has been told the names of the columns. -/
def opened {τ : Type} [RecordSink τ] (plan : Plan) (sink : τ) : τ :=
  match plan.header with
  | none => sink
  | some names => RecordSink.announce names sink

variable {σ ρ τ : Type} [RecordSource σ] [RecordSource ρ] [RecordSink τ] {plan : Plan}
  {index : Option JoinIndex}

/-- The input fed to a plan, from a sink that has been told the names of the columns. -/
def streamed (plan : Plan) (index : Option JoinIndex) (input : σ) (sink : τ) :
    Fed σ (Progress τ) :=
  feed (plan.takeRecord index) 1 input (Progress.start (Stage.ofPlan plan) (plan.opened sink))

/-- A plan is run by reading the input with the index of its join table. -/
theorem exists_run_eq_stream {join : Option ρ} (hindex : plan.JoinsBy join index) (input : σ)
    (sink : τ) : ∃ rest, plan.run input join sink = plan.stream index rest input sink := by
  cases index with
  | none =>
    have hjoin : plan.join = none := hindex
    exact ⟨join, by simp only [run, hjoin]⟩
  | some index =>
    obtain ⟨spec, table, demand, hjoin, rfl, hbuilt, rfl⟩ := hindex
    exact ⟨some (JoinIndex.build spec table).source, by simp only [run, hjoin, hbuilt]⟩

/-- A run without an error has read its join table to the end, if it joins one. -/
theorem exists_joinsBy_of_run_ok {input : σ} {join : Option ρ} {sink : τ} {stats : RunStats}
    (h : (plan.run input join sink).outcome = .ok stats) :
    ∃ index rest, plan.JoinsBy join index ∧
      plan.run input join sink = plan.stream index rest input sink := by
  unfold run at h ⊢
  split at h
  · next hjoin => exact ⟨none, _, hjoin, rfl⟩
  · cases h
  · next spec table hjoin =>
    dsimp only at h
    split at h
    · cases h
    · next demand hbuilt =>
      refine ⟨some (JoinIndex.build spec table).state, some (JoinIndex.build spec table).source,
        ⟨spec, table, demand, hjoin, rfl, hbuilt, rfl⟩, ?_⟩
      simp only [hbuilt]

omit [RecordSource ρ] in
/-- The output is ended when the input has been read, and given up if that has failed. -/
theorem stream_eq (index : Option JoinIndex) (rest : Option ρ) (input : σ) (sink : τ) :
    plan.stream index rest input sink =
      let fed := plan.streamed index input sink
      match fed.outcome with
      | .error e =>
        let (_, output) := fed.state.output.abandon
        ⟨.error e, RecordSource.close fed.source, rest, output.outlet.sink⟩
      | .ok .stop => finishRun index rest (RecordSource.close fed.source) fed.state
      | .ok .more => finishRun index rest fed.source fed.state :=
  rfl

omit [RecordSource ρ] in
/-- A run whose input has been read ends the output. -/
theorem exists_stream_eq_finishRun {input : σ} {sink : τ} {demand : Demand}
    {progress : Progress τ} (houtcome : (plan.streamed index input sink).outcome = .ok demand)
    (hstate : (plan.streamed index input sink).state = progress) (rest : Option ρ) :
    ∃ left, plan.stream index rest input sink = finishRun index rest left progress := by
  simp only [stream_eq, houtcome, hstate]
  cases demand with
  | stop => exact ⟨_, rfl⟩
  | more => exact ⟨_, rfl⟩

omit [RecordSource ρ] in
/-- A run without an error has read its input without one. -/
theorem exists_streamed_ok_of_stream_ok {input : σ} {rest : Option ρ} {sink : τ}
    {stats : RunStats} (h : (plan.stream index rest input sink).outcome = .ok stats) :
    ∃ demand, (plan.streamed index input sink).outcome = .ok demand := by
  cases houtcome : (plan.streamed index input sink).outcome with
  | ok demand => exact ⟨demand, rfl⟩
  | error e =>
    simp only [stream_eq, houtcome] at h
    cases h

end Plan
end TableQuery
