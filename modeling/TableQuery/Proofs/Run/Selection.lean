import TableQuery.Proofs.Run.Demand
import TableQuery.Proofs.Run.Phases
import TableQuery.Proofs.Run.Streaming

/-!
# What a query without groups writes

The run of a query pulls records one by one, writes rows as they are made and stops early
where it can.  What is in the sink in the end is nevertheless a function of the list of
all rows: they are sorted, told apart and cut off at the limit.
-/

namespace TableQuery

open Value

namespace Plan

/-- The rows in the order that a plan asks for, which is that of their arrival if it asks
for none. -/
def IsOrdered (plan : Plan) (rows sorted : List (List Value × Record)) : Prop :=
  if plan.orderBy.isSome then StablySorted plan.reverse rows sorted else sorted = rows

theorem isOrdered_ordered (plan : Plan) {rows : List (List Value × Record)}
    (hfree : ∀ row ∈ rows, areFloatFree row.1) : plan.IsOrdered rows (plan.ordered rows) := by
  unfold IsOrdered ordered
  split
  · exact Stage.inOrder_stablySorted plan.reverse hfree
  · rfl

/-- The order that a plan asks for leaves no choice. -/
theorem IsOrdered.unique {plan : Plan} {rows sorted sorted' : List (List Value × Record)}
    (hfree : ∀ row ∈ rows, areFloatFree row.1) (h : plan.IsOrdered rows sorted)
    (h' : plan.IsOrdered rows sorted') : sorted = sorted' := by
  unfold IsOrdered at h h'
  split at h
  · next hsome =>
    rw [if_pos hsome] at h'
    exact h.unique hfree h'
  · next hnone =>
    rw [if_neg hnone] at h'
    exact h.trans h'.symm

section Run

variable {σ ρ τ : Type} [Hashing] [RecordSource σ] [RecordSource ρ] [RecordSink τ] {plan : Plan}
  {items : List Projection} {index : Option JoinIndex}

/-- More rows are wanted unless the rows so far fill the plan. -/
theorem writeAll_start_eq_more_iff (hplain : plan.isAggregate = false) {sink : τ}
    (hsink : RecordSink.Willing sink) {rows : List (List Value × Record)}
    (hfree : ∀ row ∈ rows, areFloatFree row.2) :
    ((Output.start (Stage.ofPlan plan) sink).writeAll (rows.map plan.outputRow)).1 = .ok .more ↔
      plan.isFilledBy rows = false := by
  have hdemand := Output.passAll_demand hsink (Stage.isFlat_of_mem_ofPlan hplain)
    (Stage.hasTaken_ofPlan hplain) (isFilledBy_nil plan) hfree
    (Stage.emitsAll_ofPlan hplain hfree) []
  rw [show ((Output.start (Stage.ofPlan plan) sink).writeAll (rows.map plan.outputRow)).1 = _
    from hdemand, List.nil_append]
  cases plan.isFilledBy rows <;> simp

/-- A run on records each of which can be selected writes all their rows and ends the
output.  Records are pulled up to the first one after whose rows the writing stops. -/
theorem exists_run_eq_finishRun {input : σ} {join : Option ρ} {sink : τ}
    {records : List Record} {arrivals : List (List (List Value × Record))}
    (hselect : plan.statement = .select items) (hplain : plan.isAggregate = false)
    (hindex : plan.JoinsBy join index) (hinput : RecordSource.Yields input records)
    (harrivals : plan.MakesAll items index 1 records arrivals)
    {demand : Demand} {sent : Output τ}
    (hsent : (Output.start (Stage.ofPlan plan) (plan.opened sink)).writeAll
      (arrivals.flatten.map plan.outputRow) = (.ok demand, sent)) :
    ∃ rest left count, plan.run input join sink = finishRun index rest left ⟨sent, count, 0, 0⟩ ∧
      count ≤ records.length ∧
      (∀ k < count, ((Output.start (Stage.ofPlan plan) (plan.opened sink)).writeAll
        ((arrivals.take k).flatten.map plan.outputRow)).1 = .ok .more) ∧
      (count < records.length → ((Output.start (Stage.ofPlan plan) (plan.opened sink)).writeAll
        ((arrivals.take count).flatten.map plan.outputRow)).1 ≠ .ok .more) := by
  obtain ⟨rest, hrun⟩ := exists_run_eq_stream hindex input sink
  obtain ⟨houtcome, hstate⟩ := feed_eq_feedAll (plan.takeRecord index) hinput 1
    (Progress.start (Stage.ofPlan plan) (plan.opened sink))
  obtain ⟨count, hcount, hfeed, hbefore, hafter⟩ := feedAll_takeRecord hselect hplain
    (Progress.start (Stage.ofPlan plan) (plan.opened sink)) harrivals
  have hfed : feedAll (plan.takeRecord index) 1 records
      (Progress.start (Stage.ofPlan plan) (plan.opened sink)) =
        (.ok demand, ⟨sent, count, 0, 0⟩) := by
    refine hfeed.trans ?_
    simp only [Progress.start, hsent, Nat.zero_add]
  rw [hfed] at houtcome hstate
  obtain ⟨left, hstream⟩ := exists_stream_eq_finishRun houtcome hstate rest
  exact ⟨rest, left, count, hrun.trans hstream, hcount, hbefore, hafter⟩

/-- The run of a plan without groups, on records each of which can be selected, leaves in
the sink the rows in their order, told apart and cut off at the limit.  Records are pulled
up to the one whose rows fill the limit, and all of them if rows are held back. -/
theorem run_writes_selection {input : σ} {join : Option ρ} {sink : τ} {records : List Record}
    {arrivals : List (List (List Value × Record))}
    (hselect : plan.statement = .select items) (hplain : plan.isAggregate = false)
    (hindex : plan.JoinsBy join index) (hinput : RecordSource.Yields input records)
    (harrivals : plan.MakesAll items index 1 records arrivals)
    (hkeys : ∀ row ∈ arrivals.flatten, areFloatFree row.1)
    (hrecords : ∀ row ∈ arrivals.flatten, areFloatFree row.2)
    (hsink : RecordSink.Willing (plan.opened sink)) :
    ∃ sorted stats, plan.IsOrdered arrivals.flatten sorted ∧
      let out := plan.limited (plan.distinct.select (sorted.map Prod.snd))
      let ended := RecordSink.finish (RecordSink.writeAll (plan.opened sink) out)
      let result := ((Execution.ofPlan plan).run input join sink).1
      result.sink = ended.2 ∧ result.outcome = (ended.1.mapError .table).map (fun _ => stats) ∧
        stats.written = out.length ∧ stats.read ≤ records.length ∧
        (∀ k < stats.read, plan.isFilledBy (arrivals.take k).flatten = false) ∧
        (stats.read < records.length →
          plan.isFilledBy (arrivals.take stats.read).flatten = true) := by
  have hmore : ∀ k, ((Output.start (Stage.ofPlan plan) (plan.opened sink)).writeAll
      ((arrivals.take k).flatten.map plan.outputRow)).1 = .ok .more ↔
        plan.isFilledBy (arrivals.take k).flatten = false := by
    intro k
    refine writeAll_start_eq_more_iff hplain hsink fun row hrow => hrecords row ?_
    obtain ⟨made, hmade, hrow⟩ := List.mem_flatten.mp hrow
    exact List.mem_flatten.mpr ⟨made, List.mem_of_mem_take hmade, hrow⟩
  obtain ⟨demand, sent, ended, hsent, hfinish, hended, hwritten⟩ :=
    Output.finish_writeAll hsink (Stage.isFlat_of_mem_ofPlan hplain)
      (Stage.emitsAll_ofPlan hplain hrecords)
  obtain ⟨rest, left, count, hrun, hcount, hbefore, hafter⟩ :=
    exists_run_eq_finishRun hselect hplain hindex hinput harrivals hsent
  refine ⟨plan.ordered arrivals.flatten, ⟨count, ended.written, 0,
    (index.map JoinIndex.size).getD 0, []⟩, plan.isOrdered_ordered hkeys, ?_⟩
  have hresult : ((Execution.ofPlan plan).run input join sink).1 =
      finishRun index rest left ⟨sent, count, 0, 0⟩ := hrun
  simp only [hresult, finishRun, hfinish]
  refine ⟨hended, rfl, hwritten, hcount, fun k hk => (hmore k).mp (hbefore k hk), ?_⟩
  intro hlt
  exact eq_true_of_ne_false (mt (hmore count).mpr (hafter hlt))

end Run

/-- The fields of a list beside the key of a join, for the records that meet a condition: in
descending order, counted, and cut off at the third. -/
theorem run_writes_selection_joined :
    let items : List Projection := [.value (.field .input 0 "a1"),
      .value (.unfold (.list [.field .join 1 "b2", .literal (.int 0)]))]
    let condition : Bound := .binary .ne (.field .input 0 "a1") (.literal (.int 2))
    let join : JoinSpec := ⟨"b", .inner, [⟨.field .input 0 "a1", .field .join 0 "b1"⟩]⟩
    let plan : Plan := ⟨.select items, some condition, some join,
      some [.field .join 1 "b2"], true, none, .counted, some 3, none, 0, none⟩
    let table := MemoryTable.ofRecords none
      [[.int 1, .int 5], [.int 3, .int 7], [.int 1, .int 7], [.int 2, .int 9]]
    ((Execution.ofPlan plan).run (MemoryTable.ofRecords none [[.int 1], [.int 2], [.int 3]])
      (some table) (MemorySink.empty none)).1.sink.records =
        [[.int 1, .int 1, .int 7], [.int 2, .int 1, .int 0], [.int 1, .int 3, .int 7]] := by
  intro items condition join plan table
  have hmade (number partner : Nat) (n v : Int64)
      (hmeets : plan.Meets ⟨[.int n], number, some ⟨some partner, [.int n, .int v]⟩⟩) :
      plan.Makes items ⟨[.int n], number, some ⟨some partner, [.int n, .int v]⟩⟩
        [([.int v], [.int n, .int v]), ([.int v], [.int n, .int 0])] :=
    @Makes.unfolded plan items _ [.int v] [.value (.field .input 0 "a1")] []
      (.list [.field .join 1 "b2", .literal (.int 0)]) [[.int n]] [] [.int v, .int 0] hmeets rfl
      (.cons (.value rfl) .nil) rfl .nil (.cons rfl .nil)
  have hmeets (row : Row) (h : condition.eval row [] = .ok (.bool true)) : plan.Meets row := by
    rintro _ ⟨⟩
    exact ⟨_, h, .bool⟩
  have hfalse : ¬Value.CountsAsTrue (.bool false) := by rintro ⟨⟩
  let index : JoinIndex := ⟨join, [([.int 1], [⟨some 1, [.int 1, .int 5]⟩,
      ⟨some 3, [.int 1, .int 7]⟩]), ([.int 3], [⟨some 2, [.int 3, .int 7]⟩]),
    ([.int 2], [⟨some 4, [.int 2, .int 9]⟩])], 4, 2⟩
  have hindex : plan.JoinsBy (some table) (some index) := by
    have hbuilt := feed_eq_feedAll JoinIndex.insert (MemoryTable.yields_records table) 1
      (JoinIndex.empty join)
    exact ⟨join, table, .more, rfl, rfl, hbuilt.1.trans rfl, hbuilt.2.trans rfl⟩
  let arrivals : List (List (List Value × Record)) :=
    [[[([.int 5], [.int 1, .int 5]), ([.int 5], [.int 1, .int 0])],
      [([.int 7], [.int 1, .int 7]), ([.int 7], [.int 1, .int 0])]].flatten, [[]].flatten,
      [[([.int 7], [.int 3, .int 7]), ([.int 7], [.int 3, .int 0])]].flatten]
  have harrivals : plan.MakesAll items (some index) 1 [[.int 1], [.int 2], [.int 3]] arrivals :=
    .cons (.joined rfl) (.cons (hmade 1 1 1 5 (hmeets _ rfl))
        (.cons (hmade 1 3 1 7 (hmeets _ rfl)) .nil))
      (.cons (.joined rfl) (.cons (.missed ⟨condition, .bool false, rfl, rfl, hfalse⟩) .nil)
        (.cons (.joined rfl) (.cons (hmade 3 2 3 7 (hmeets _ rfl)) .nil) (.nil 4)))
  have hordered : plan.IsOrdered arrivals.flatten
      [([.int 7], [.int 1, .int 7]), ([.int 7], [.int 1, .int 0]),
        ([.int 7], [.int 3, .int 7]), ([.int 7], [.int 3, .int 0]),
        ([.int 5], [.int 1, .int 5]), ([.int 5], [.int 1, .int 0])] := by
    refine ⟨by decide, by decide, fun key => ?_⟩
    by_cases hfive : [.int 5] = key
    · subst hfive
      decide
    · by_cases hseven : [.int 7] = key
      · subst hseven
        decide
      · simp [arrivals, hfive, hseven]
  obtain ⟨sorted, stats, hsorted, hsink, -⟩ := @run_writes_selection
    MemoryTable MemoryTable MemorySink _ _ _ _ plan items (some index)
    (MemoryTable.ofRecords none [[.int 1], [.int 2], [.int 3]]) (some table)
    (MemorySink.empty none) _ arrivals rfl rfl hindex (MemoryTable.yields_records _) harrivals
    (by decide) (by decide) (MemorySink.willing rfl)
  obtain rfl := hsorted.unique (by decide) hordered
  rw [hsink, MemorySink.records_finish_writeAll]
  rfl

end Plan
end TableQuery
