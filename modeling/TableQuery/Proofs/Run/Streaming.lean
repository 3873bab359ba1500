import TableQuery.Proofs.Run.Arrivals
import TableQuery.Proofs.Run.Feed

/-!
# The input as one list of rows

The rows that are made of the input records are written record by record and partner by
partner.  Whatever becomes of them, this is the same as writing one list of all rows; only
the number of records that are pulled depends on where the writing stops.
-/

namespace TableQuery

variable {σ : Type} [RecordSink σ]

namespace Output

variable [Hashing]

theorem passAll_append (rows more : List OutputRow) (stages : List Stage)
    (outlet : Outlet σ) :
    passAll (rows ++ more) stages outlet =
      match passAll rows stages outlet with
      | (.ok .more, stages, outlet) => passAll more stages outlet
      | other => other := by
  induction rows generalizing stages outlet with
  | nil => rfl
  | cons row rows ih =>
    rw [List.cons_append, passAll, passAll]
    rcases pass row stages outlet with ⟨_ | ⟨_ | _⟩, stages', outlet'⟩
    · rfl
    · exact ih stages' outlet'
    · rfl

/-- Rows are written one list after the other, until no more are wanted. -/
theorem writeAll_append (output : Output σ) (rows more : List OutputRow) :
    output.writeAll (rows ++ more) =
      match output.writeAll rows with
      | (.ok .more, output) => output.writeAll more
      | other => other := by
  simp only [writeAll, passAll_append]
  rcases passAll rows output.stages output.outlet with ⟨_ | ⟨_ | _⟩, stages', outlet'⟩ <;> rfl

end Output

namespace Plan

variable {plan : Plan} {items : List Projection} {index : Option JoinIndex}

variable [Hashing]

/-- The rows that are made of rows are written as one list. -/
theorem selectRows_eq (hplain : plan.isAggregate = false) {rows : List Row}
    {made : List (List (List Value × Record))}
    (hmade : List.Forall₂ (plan.Makes items) rows made) (progress : Progress σ) :
    plan.selectRows items rows progress =
      progress.writeAll (made.flatten.map plan.outputRow) := by
  induction hmade generalizing progress with
  | nil => rfl
  | @cons row first rows made hfirst _ ih =>
    rw [selectRows, hfirst.rowsOf_eq hplain, List.flatten_cons, List.map_append]
    simp only [Progress.writeAll, Output.writeAll_append]
    rcases progress.output.writeAll (first.map plan.outputRow) with ⟨_ | ⟨_ | _⟩, output⟩
    · rfl
    · exact ih _
    · rfl

theorem takeRecord_eq (hselect : plan.statement = .select items)
    (hplain : plan.isAggregate = false) {record : Record} {number : Nat} {rows : List Row}
    {made : List (List (List Value × Record))} (hrows : StandsIn record number index rows)
    (hmade : List.Forall₂ (plan.Makes items) rows made) (progress : Progress σ) :
    plan.takeRecord index number record progress =
      Progress.writeAll { progress with read := number }
        (made.flatten.map plan.outputRow) := by
  simp only [takeRecord, hselect, rowsBeside_eq_ok_iff.mpr hrows]
  exact selectRows_eq hplain hmade _

/-- Feeding the input records is writing all their rows at once.  The records are pulled
up to the first one after whose rows the writing stops. -/
theorem feedAll_takeRecord (hselect : plan.statement = .select items)
    (hplain : plan.isAggregate = false) {records : List Record}
    {arrivals : List (List (List Value × Record))} (progress : Progress σ)
    (harrivals : plan.MakesAll items index (progress.read + 1) records arrivals) :
    ∃ count ≤ records.length,
      feedAll (plan.takeRecord index) (progress.read + 1) records progress =
          ((progress.output.writeAll (arrivals.flatten.map plan.outputRow)).1,
            { progress with
              output := (progress.output.writeAll (arrivals.flatten.map plan.outputRow)).2
              read := progress.read + count }) ∧
        (∀ k < count, (progress.output.writeAll
          ((arrivals.take k).flatten.map plan.outputRow)).1 = .ok .more) ∧
        (count < records.length → (progress.output.writeAll
          ((arrivals.take count).flatten.map plan.outputRow)).1 ≠ .ok .more) := by
  induction records generalizing arrivals progress with
  | nil =>
    cases harrivals
    exact ⟨0, Nat.le_refl 0, rfl, nofun, nofun⟩
  | cons record records ih =>
    obtain _ | @⟨_, _, _, _, made, rest, hrows, hmade, hrest⟩ := harrivals
    rw [feedAll, takeRecord_eq hselect hplain hrows hmade]
    generalize made.flatten = first
    simp only [Progress.writeAll, List.flatten_cons, List.map_append, Output.writeAll_append]
    rcases hwrite : progress.output.writeAll (first.map plan.outputRow) with
      ⟨_ | ⟨_ | _⟩, output⟩
    case ok.more =>
      -- The rest is fed to what the rows of the first record have left.
      obtain ⟨count, hcount, hfeed, hbefore, hafter⟩ :=
        ih { progress with output, read := progress.read + 1 } hrest
      refine ⟨count + 1, Nat.succ_le_succ hcount, ?_, ?_, ?_⟩
      · simpa [Nat.add_assoc, Nat.add_comm 1] using hfeed
      · intro k hk
        cases k with
        | zero => rfl
        | succ k =>
          simp only [List.take_succ_cons, List.flatten_cons, List.map_append,
            Output.writeAll_append, hwrite]
          exact hbefore k (Nat.lt_of_succ_lt_succ hk)
      · intro hlt
        simp only [List.take_succ_cons, List.flatten_cons, List.map_append,
          Output.writeAll_append, hwrite]
        exact hafter (Nat.lt_of_succ_lt_succ hlt)
    all_goals
      refine ⟨1, by simp, rfl, ?_, ?_⟩
      · intro k hk
        obtain rfl : k = 0 := by omega
        rfl
      · simp [hwrite]

end Plan
end TableQuery
