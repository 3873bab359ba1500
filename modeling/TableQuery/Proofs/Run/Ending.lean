import TableQuery.Proofs.Query.Clauses
import TableQuery.Proofs.Query.Equality
import TableQuery.Proofs.Run.Feed
import TableQuery.Proofs.Run.Phases
import TableQuery.Proofs.Run.Rows
import TableQuery.Proofs.Run.Stopping

/-!
# How a run ends

A run tells its sink the names of the columns, writes records to it and ends it.  Once the
index of the join table has been built, the run passes through all its exits to the one place
where the sink is ended, and nothing is written behind it.  A run without an index is over
before the sink has been asked for anything, so that the sink is not ended either.
-/

namespace TableQuery

/-! ## Sinks that are written to -/

namespace RecordSink

variable {σ : Type} [RecordSink σ]

/-- A sink becomes another one when some records are written to it. -/
def Reaches (sink sink' : σ) : Prop :=
  ∃ records, sink' = writeAll sink records

theorem Reaches.refl (sink : σ) : Reaches sink sink :=
  ⟨[], rfl⟩

theorem Reaches.trans {sink sink' sink'' : σ} (h : Reaches sink sink')
    (h' : Reaches sink' sink'') : Reaches sink sink'' := by
  obtain ⟨before, rfl⟩ := h
  obtain ⟨after, rfl⟩ := h'
  exact ⟨before ++ after, List.foldl_append.symm⟩

theorem reaches_write (sink : σ) (record : Record) : Reaches sink (write record sink).2 :=
  ⟨[record], rfl⟩

end RecordSink

namespace Outlet

variable {σ : Type} [RecordSink σ]

theorem reaches_write (outlet : Outlet σ) (row : OutputRow) :
    RecordSink.Reaches outlet.sink (outlet.write row).2.sink := by
  by_cases hfull : outlet.full
  · rw [write_of_full hfull]
    exact .refl outlet.sink
  · obtain ⟨fault, -, heq⟩ | ⟨record, e, sink, -, hwrite, heq⟩ |
        ⟨record, demand, sink, -, hwrite, heq⟩ := write_cases (by simpa using hfull) row
    · rw [heq]
      exact .refl outlet.sink
    all_goals
      have hreaches := RecordSink.reaches_write outlet.sink record
      rw [hwrite] at hreaches
      rw [heq]
      exact hreaches

theorem reaches_write_of_reaches {sink : σ} (outlet : Outlet σ) (row : OutputRow)
    (h : RecordSink.Reaches sink outlet.sink) :
    RecordSink.Reaches sink (outlet.write row).2.sink :=
  h.trans (reaches_write outlet row)

end Outlet

namespace Output

variable {σ : Type} [Hashing] [RecordSink σ]

theorem reaches_writeAll (output : Output σ) (rows : List OutputRow) :
    RecordSink.Reaches output.outlet.sink (output.writeAll rows).2.outlet.sink :=
  passAll_keeps Outlet.reaches_write_of_reaches (.refl _) rows output.stages

theorem reaches_drainAll (stages : List Stage) (outlet : Outlet σ) :
    RecordSink.Reaches outlet.sink (drainAll stages outlet).2.2.sink :=
  drainAll_keeps Outlet.reaches_write_of_reaches (.refl _) stages

end Output

/-! ## What a run keeps -/

namespace Plan

/-- The rows that a plan may write for an input record. -/
inductive Writes [Hashing] (plan : Plan) (index : Option JoinIndex) (number : Nat)
    (record : Record) : OutputRow → Prop where
  /-- One of the rows that are made of a row in which the record stands. -/
  | selected {items : List Projection} {rows : List Row} {row : Row} {out : List OutputRow}
    {written : OutputRow} (hstatement : plan.statement = .select items)
    (hrows : StandsIn record number index rows) (hrow : row ∈ rows)
    (hout : plan.rowsOf items row = .ok out) (hwritten : written ∈ out) :
    Writes plan index number record written
  /-- The record as it was read. -/
  | kept {assignments : List Assignment} (hstatement : plan.statement = .update assignments) :
    Writes plan index number record (.plain record)
  /-- The record with new values. -/
  | updated {assignments : List Assignment} {rows : List Row} {row : Row} {updated : Updated}
    (hstatement : plan.statement = .update assignments)
    (hrows : StandsIn record number index rows) (hrow : row ∈ rows)
    (hupdated : plan.update assignments row = .ok (some updated)) :
    Writes plan index number record (.plain updated.fields)

section Agreement

variable {other : Hashing} [Hashing] {τ : Type} [RecordSink τ] {plan : Plan}
  {K : Output τ → Prop} {index : Option JoinIndex} {number : Nat} {record : Record}
  (hwrite : ∀ output rows, (∀ row ∈ rows, plan.Writes index number record row) →
    K output → @Output.writeAll τ other _ output rows = output.writeAll rows ∧
      K (output.writeAll rows).2)

include hwrite

theorem selectRows_agrees {items : List Projection} (hstatement : plan.statement = .select items)
    {rows rest : List Row} (hrows : StandsIn record number index rows)
    (hrest : ∀ row ∈ rest, row ∈ rows) {progress : Progress τ} (h : K progress.output) :
    @selectRows τ other _ plan items rest progress = plan.selectRows items rest progress ∧
      K (plan.selectRows items rest progress).2.output := by
  induction rest generalizing progress with
  | nil => exact ⟨rfl, h⟩
  | cons row rest ih =>
    obtain ⟨hrow, hrest⟩ := List.forall_mem_cons.mp hrest
    unfold selectRows
    cases hout : plan.rowsOf items row with
    | error fault => exact ⟨rfl, h⟩
    | ok out =>
      obtain ⟨hsame, hkept⟩ := hwrite progress.output out
        (fun _ hwritten => .selected hstatement hrows hrow hout hwritten) h
      dsimp only [Progress.writeAll]
      rw [hsame]
      rcases hwritten : progress.output.writeAll out with ⟨e | _ | _, output⟩
      all_goals rw [hwritten] at hkept
      · exact ⟨rfl, hkept⟩
      · exact ih hrest hkept
      · exact ⟨rfl, hkept⟩

theorem write_agrees {written : Record}
    (hwrites : plan.Writes index number record (.plain written)) {progress : Progress τ}
    (h : K progress.output) :
    @Progress.write τ other _ progress written = progress.write written ∧
      K (progress.write written).2.output := by
  obtain ⟨hsame, hkept⟩ :=
    hwrite progress.output [.plain written] (List.forall_mem_singleton.mpr hwrites) h
  dsimp only [Progress.write, Progress.writeAll]
  rw [hsame]
  exact ⟨rfl, hkept⟩

theorem updateRow_agrees {assignments : List Assignment}
    (hstatement : plan.statement = .update assignments) {rows : List Row} {row : Row}
    (hrows : StandsIn record number index rows) (hrow : row ∈ rows)
    (hrecord : row.fields = record) {progress : Progress τ} (h : K progress.output) :
    @updateRow τ other _ plan assignments row progress =
        plan.updateRow assignments row progress ∧
      K (plan.updateRow assignments row progress).2.output := by
  unfold updateRow
  cases hupdated : plan.update assignments row with
  | error fault => exact ⟨rfl, h⟩
  | ok updated? =>
    cases updated? with
    | none => exact write_agrees hwrite (hrecord ▸ .kept hstatement) h
    | some updated => exact write_agrees hwrite (.updated hstatement hrows hrow hupdated) h

/-- An input record is taken alike if its partners are found alike and all rows that are
written for it are. -/
theorem takeRecord_agrees
    (hfind : ∀ index', index = some index' → ∀ key, index'.inputKey record number = .ok key →
      @JoinIndex.find other index' key = index'.find key)
    {progress : Progress τ} (h : K progress.output) :
    @takeRecord τ other _ plan index number record progress =
        plan.takeRecord index number record progress ∧
      K (plan.takeRecord index number record progress).2.output := by
  have hlookup : ∀ index', index = some index' →
      @JoinIndex.lookup other index' record number = index'.lookup record number ∧
        @JoinIndex.lookupOne other index' record number = index'.lookupOne record number :=
    fun index' hindex => JoinIndex.lookup_agrees (hfind index' hindex)
  unfold takeRecord
  dsimp only
  split
  · next items hstatement =>
    have hbeside : @rowsBeside other index record number = rowsBeside index record number := by
      cases index with
      | none => rfl
      | some index' =>
        unfold rowsBeside
        dsimp only
        rw [(hlookup index' rfl).1]
    rw [hbeside]
    cases hrows : rowsBeside index record number with
    | error fault => exact ⟨rfl, h⟩
    | ok rows =>
      exact selectRows_agrees hwrite hstatement (rowsBeside_eq_ok_iff.mp hrows)
        (fun _ hrow => hrow) h
  · next assignments hstatement =>
    unfold updateRecord
    cases index with
    | none =>
      exact updateRow_agrees hwrite hstatement .alone (List.mem_singleton_self _) rfl h
    | some index' =>
      dsimp only
      rw [(hlookup index' rfl).2]
      rcases hpartner : index'.lookupOne record number with fault | _ | partner
      · exact ⟨rfl, h⟩
      · exact write_agrees hwrite (.kept hstatement) h
      · exact updateRow_agrees hwrite hstatement
          (.joined (JoinIndex.lookup_of_lookupOne hpartner)) (List.mem_singleton_self _) rfl h

end Agreement

section Keeping

variable [Hashing] {τ : Type} [RecordSink τ] {plan : Plan} {K : Output τ → Prop}
  {index : Option JoinIndex}

/-- An input record keeps what all rows keep that are written for it. -/
theorem takeRecord_keeps {number : Nat} {record : Record}
    (hwrite : ∀ output rows, (∀ row ∈ rows, plan.Writes index number record row) → K output →
      K (output.writeAll rows).2)
    {progress : Progress τ} (h : K progress.output) :
    K (plan.takeRecord index number record progress).2.output :=
  (takeRecord_agrees (fun output rows hrows hkept => ⟨rfl, hwrite output rows hrows hkept⟩)
    (fun _ _ _ _ => rfl) h).2

/-- So does the whole input. -/
theorem streamed_keeps {σ : Type} [RecordSource σ]
    (hwrite : ∀ number record output rows,
      (∀ row ∈ rows, plan.Writes index number record row) → K output →
        K (output.writeAll rows).2)
    (input : σ) {sink : τ} (h : K (.start (Stage.ofPlan plan) (plan.opened sink))) :
    K (plan.streamed index input sink).state.output := by
  refine feed_keeps (P := fun progress : Progress τ => K progress.output) ?_ h 1
  intro record _ number progress hprogress
  exact takeRecord_keeps (hwrite number record) hprogress

end Keeping

/-! ## The end of a run -/

variable {σ ρ τ : Type} [Hashing] [RecordSource σ] [RecordSink τ] {plan : Plan}

theorem finished_streamed (plan : Plan) (index : Option JoinIndex) (input : σ) (sink : τ) :
    (plan.streamed index input sink).state.output.finished = false :=
  streamed_keeps (K := fun output => output.finished = false) (fun _ _ _ _ _ h => h) input rfl

theorem reaches_streamed (plan : Plan) (index : Option JoinIndex) (input : σ) (sink : τ) :
    RecordSink.Reaches (plan.opened sink)
      (plan.streamed index input sink).state.output.outlet.sink :=
  streamed_keeps
    (K := fun output => RecordSink.Reaches (plan.opened sink) output.outlet.sink)
    (fun _ _ output rows _ h => h.trans (output.reaches_writeAll rows)) input (.refl _)

/-- If the input cannot be read to its end, the sink is ended as it is. -/
theorem stream_of_error {index : Option JoinIndex} {input : σ} {sink : τ} {e : RunError}
    (h : (plan.streamed index input sink).outcome = .error e) (rest : Option ρ) :
    (plan.stream index rest input sink).sink =
      (RecordSink.finish (plan.streamed index input sink).state.output.outlet.sink).2 := by
  simp [stream_eq, h, Output.abandon, finished_streamed, Output.finishSink]

/-- If it can, the stages are emptied before. -/
theorem stream_of_ok {index : Option JoinIndex} {input : σ} {sink : τ} {demand : Demand}
    (h : (plan.streamed index input sink).outcome = .ok demand) (rest : Option ρ) :
    let output := (plan.streamed index input sink).state.output
    let drained := Output.drainAll output.stages output.outlet
    (plan.stream index rest input sink).sink = (RecordSink.finish drained.2.2.sink).2 ∧
      ∃ stats, (plan.stream index rest input sink).outcome =
        (drained.1.bind fun _ => (RecordSink.finish drained.2.2.sink).1.mapError .table).map
          fun _ => stats := by
  obtain ⟨left, hfinish⟩ := exists_stream_eq_finishRun h rfl rest
  rw [hfinish]
  simp only [finishRun, Output.finish, finished_streamed, Bool.false_eq_true, if_false,
    Output.finishSink, true_and]
  exact ⟨_, rfl⟩

/-- However the input has been read, the sink has been given some records and then been
ended. -/
theorem exists_stream_sink_eq (plan : Plan) (index : Option JoinIndex) (rest : Option ρ)
    (input : σ) (sink : τ) :
    ∃ records, (plan.stream index rest input sink).sink =
      (RecordSink.finish (RecordSink.writeAll (plan.opened sink) records)).2 := by
  have hstreamed := reaches_streamed plan index input sink
  cases houtcome : (plan.streamed index input sink).outcome with
  | error e =>
    obtain ⟨records, hrecords⟩ := hstreamed
    rw [stream_of_error houtcome, hrecords]
    exact ⟨records, rfl⟩
  | ok demand =>
    obtain ⟨records, hrecords⟩ := hstreamed.trans (Output.reaches_drainAll
      (plan.streamed index input sink).state.output.stages _)
    rw [(stream_of_ok houtcome rest).1, hrecords]
    exact ⟨records, rfl⟩

end Plan

/-! ## What a sink is asked for -/

/-- What a sink can be asked for. -/
inductive SinkCall where
  | announce (names : List String)
  | write (record : Record)
  | finish

/-- The record that a sink is given, if it is asked to take one. -/
def SinkCall.record? : SinkCall → Option Record
  | write record => some record
  | _ => none

/-- A sink with all that it has been asked for, in order. -/
structure Traced (σ : Type) where
  sink : σ
  calls : List SinkCall

namespace Traced

variable {σ : Type} [RecordSink σ]

/-- A sink that has not been asked for anything. -/
def ofSink (sink : σ) : Traced σ :=
  ⟨sink, []⟩

instance : RecordSink (Traced σ) where
  announce names traced :=
    ⟨RecordSink.announce names traced.sink, traced.calls ++ [.announce names]⟩
  write record traced :=
    let (answer, sink) := RecordSink.write record traced.sink
    (answer, ⟨sink, traced.calls ++ [.write record]⟩)
  finish traced :=
    let (outcome, sink) := RecordSink.finish traced.sink
    (outcome, ⟨sink, traced.calls ++ [.finish]⟩)
  warnings traced := RecordSink.warnings traced.sink

theorem sink_writeAll (traced : Traced σ) (records : List Record) :
    (RecordSink.writeAll traced records).sink = RecordSink.writeAll traced.sink records := by
  induction records generalizing traced with
  | nil => rfl
  | cons record records ih => exact ih (RecordSink.write record traced).2

theorem sink_opened (plan : Plan) (sink : σ) :
    (plan.opened (ofSink sink)).sink = plan.opened sink := by
  unfold Plan.opened
  cases plan.header with
  | none => rfl
  | some names => rfl

theorem calls_writeAll (traced : Traced σ) (records : List Record) :
    (RecordSink.writeAll traced records).calls = traced.calls ++ records.map .write := by
  induction records generalizing traced with
  | nil => exact (List.append_nil _).symm
  | cons record records ih =>
    have hnext : (RecordSink.write record traced).2.calls = traced.calls ++ [.write record] := rfl
    have hrest := ih (RecordSink.write record traced).2
    rw [hnext, List.append_assoc] at hrest
    exact hrest

theorem calls_finish (traced : Traced σ) :
    (RecordSink.finish traced).2.calls = traced.calls ++ [.finish] :=
  rfl

/-- The records that a sink has been given, in order. -/
def records (traced : Traced σ) : List Record :=
  traced.calls.filterMap SinkCall.record?

theorem records_writeAll (traced : Traced σ) (records : List Record) :
    (RecordSink.writeAll traced records).records = traced.records ++ records := by
  have hmap : (records.map SinkCall.write).filterMap SinkCall.record? = records := by
    rw [List.filterMap_map]
    exact List.filterMap_some
  rw [Traced.records, calls_writeAll, List.filterMap_append, hmap]
  rfl

theorem records_finish (traced : Traced σ) :
    (RecordSink.finish traced).2.records = traced.records := by
  rw [records, calls_finish, List.filterMap_append]
  exact List.append_nil _

theorem calls_opened (plan : Plan) (sink : σ) :
    (plan.opened (ofSink sink)).calls = plan.header.toList.map .announce := by
  unfold Plan.opened
  cases plan.header with
  | none => rfl
  | some names => rfl

theorem records_opened (plan : Plan) (sink : σ) : (plan.opened (ofSink sink)).records = [] := by
  rw [records, calls_opened]
  cases plan.header with
  | none => rfl
  | some names => rfl

end Traced

namespace Plan

variable {σ ρ τ : Type} [RecordSource σ] [RecordSource ρ] [RecordSink τ]

/-- A plan that joins a table of which there is no index fails at once. -/
theorem run_of_not_joinsBy [Hashing] {plan : Plan} {join : Option ρ}
    (h : ¬∃ index, plan.JoinsBy join index) (input : σ) (sink : τ) :
    (plan.run input join sink).sink = sink ∧
      ∃ e, (plan.run input join sink).outcome = .error e := by
  unfold run
  split
  · next hjoin => exact absurd ⟨none, hjoin⟩ h
  · exact ⟨rfl, _, rfl⟩
  · next spec table hjoin =>
    dsimp only
    split
    · next e hbuilt => exact ⟨rfl, e, rfl⟩
    · next demand hbuilt =>
      exact absurd ⟨some _, spec, table, demand, hjoin, rfl, hbuilt, rfl⟩ h

/-- A run with an index of its join table, or without a join, ends its sink once, however it
goes: the sink is told the names of the columns, is given records and is ended.  A run that
lacks the index fails and does not ask the sink for anything. -/
theorem run_calls [Hashing] (plan : Plan) (input : σ) (join : Option ρ) (sink : τ) :
    let result := ((Execution.ofPlan plan).run input join (Traced.ofSink sink)).1
    ((∃ index, plan.JoinsBy join index) ∧ ∃ records : List Record,
      result.sink.calls =
        plan.header.toList.map .announce ++ records.map .write ++ [.finish]) ∨
    ((¬∃ index, plan.JoinsBy join index) ∧ (∃ e, result.outcome = .error e) ∧
      result.sink.calls = []) := by
  intro result
  have hresult : result = plan.run input join (Traced.ofSink sink) := rfl
  by_cases hjoins : ∃ index, plan.JoinsBy join index
  · left
    refine ⟨hjoins, ?_⟩
    obtain ⟨index, hindex⟩ := hjoins
    obtain ⟨rest, hrun⟩ := exists_run_eq_stream hindex input (Traced.ofSink sink)
    obtain ⟨records, hsink⟩ := exists_stream_sink_eq plan index rest input (Traced.ofSink sink)
    refine ⟨records, ?_⟩
    rw [hresult, hrun, hsink, Traced.calls_finish, Traced.calls_writeAll, Traced.calls_opened]
  · right
    obtain ⟨hsink, herror⟩ := run_of_not_joinsBy hjoins input (Traced.ofSink sink)
    rw [hresult, hsink]
    exact ⟨hjoins, herror, rfl⟩

/-- A query that joins records by their second field. -/
theorem ofQuery_joinKey :
    ofQuery "select * join b on a1 == b2".toList ⟨[("a1", 0)], none⟩
        (some ⟨[("b2", 1)], none⟩) Scope.empty =
      .ok ⟨.select [.star .all], none,
        some ⟨"b", .inner, [⟨.field .input 0 "a1", .field .join 1 "b2"⟩]⟩, none, false, none,
        .no, none, none, 0, none⟩ := by
  have hfound : ClauseKind.all.mapM (KeywordPlace.one? "select * join b on a1 == b2".toList) =
      .ok [some ⟨.join, .inner, 9, 13⟩, some ⟨.select, .inner, 0, 6⟩, none, none, none, none,
        none, none] := rfl
  have hplaces : KeywordPlace.all "select * join b on a1 == b2".toList =
      .ok [⟨.select, .inner, 0, 6⟩, ⟨.join, .inner, 9, 13⟩] :=
    KeywordPlace.all_eq_ok hfound (List.Perm.swap _ _ _) (by decide)
  rw [ofQuery_eq_of_places (by decide +kernel) (by decide +kernel) hplaces]
  decide +kernel

/-- The sink is not ended if a record of the join table has no key, nor if there is no join
table. -/
theorem run_calls_unended :
    ∃ plan, ofQuery "select * join b on a1 == b2".toList ⟨[("a1", 0)], none⟩
        (some ⟨[("b2", 1)], none⟩) Scope.empty = .ok plan ∧
      let run := fun table => ((Execution.ofPlan plan).run
        (MemoryTable.ofRecords none [[.int 7]]) table (Traced.ofSink (MemorySink.empty none))).1
      let keyless := run (some (MemoryTable.ofRecords none [[.int 7]]))
      (keyless.outcome = .error (.data (.joinKey 1 (.noSuchColumn "b2"))) ∧
        keyless.sink.calls = [] ∧ keyless.sink.sink.finished = false) ∧
      (run none).outcome = .error (.table .noJoinTable) ∧
        (run none).sink.calls = [] ∧ (run none).sink.sink.finished = false :=
  ⟨_, ofQuery_joinKey, ⟨by cbv, by cbv, by cbv⟩, rfl, rfl, rfl⟩

end Plan
end TableQuery
