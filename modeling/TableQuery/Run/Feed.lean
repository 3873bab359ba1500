import TableQuery.Run.Error
import TableQuery.Table.Basic

/-!
# Feeding records

A consumer is fed the records of a source one by one, together with their numbers, until
the source ends or fails, or the consumer fails or wants no more.
-/

namespace TableQuery

/-- What a consumer of records has come to. -/
structure Fed (σ τ : Type) where
  /-- The error that ended it, or whether more records would have been wanted. -/
  outcome : Except RunError Demand
  /-- The source after the records that were pulled. -/
  source : σ
  /-- The state of the consumer. -/
  state : τ

/-- A consumer that takes the record with the given number. -/
abbrev Consumer (τ : Type) := Nat → Record → τ → Except RunError Demand × τ

/-- Feeds the records of a source to a consumer. The first one has the given number. -/
def feed {σ τ : Type} [RecordSource σ] (take : Consumer τ) (number : Nat) (source : σ)
    (state : τ) : Fed σ τ :=
  match _ : RecordSource.next source with
  | (.error e, source) => ⟨.error (.table e), source, state⟩
  | (.ok none, source) => ⟨.ok .more, source, state⟩
  | (.ok (some record), source) =>
    match take number record state with
    | (.ok .more, state) => feed take (number + 1) source state
    | (outcome, state) => ⟨outcome, source, state⟩
termination_by RecordSource.remaining source
decreasing_by exact RecordSource.remaining_lt (by assumption)

end TableQuery
