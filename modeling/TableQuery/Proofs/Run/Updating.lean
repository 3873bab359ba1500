import TableQuery.Proofs.Query.Clauses
import TableQuery.Proofs.Query.Equality
import TableQuery.Proofs.Run.Assignments
import TableQuery.Proofs.Run.Emission
import TableQuery.Proofs.Run.Feed
import TableQuery.Proofs.Run.Phases
import TableQuery.Proofs.Run.Rows

/-!
# What an update writes

The output of a query that updates records has no stages, so every input record is written
once, in its turn.  It is written as it was read unless it has a partner, if the query
joins, and meets the condition; then its fields are assigned at once.  Since the fields are
assigned at once, the order of assignments to different fields does not show in the output.
-/

namespace TableQuery

/-! ## One record -/

namespace Plan

/-- What an update makes of the input record with the given number, and whether it counts
as updated. -/
inductive Updates [Hashing] (plan : Plan) (assignments : List Assignment)
    (index : Option JoinIndex) (record : Record) (number : Nat) : Record → Bool → Prop where
  /-- A record without a partner stays as it is. -/
  | unmatched (hrows : StandsIn record number index []) :
    Updates plan assignments index record number record false
  /-- A record that does not meet the condition stays as it is. -/
  | unselected {partner : Option Partner}
    (hrows : StandsIn record number index [⟨record, number, partner⟩])
    (hmisses : plan.Misses ⟨record, number, partner⟩) :
    Updates plan assignments index record number record false
  /-- Any other record gets the values that are assigned for it and its partner. -/
  | assigned {partner : Option Partner} {fields : Record}
    (hrows : StandsIn record number index [⟨record, number, partner⟩])
    (hmeets : plan.Meets ⟨record, number, partner⟩)
    (hfields : Assigned ⟨record, number, partner⟩ assignments fields) :
    Updates plan assignments index record number fields true

/-- The records that an update makes of the input records, in their order. -/
structure AreUpdates [Hashing] (plan : Plan) (assignments : List Assignment)
    (index : Option JoinIndex) (records : List Record) (out : List (Record × Bool)) : Prop where
  /-- There is one for every input record. -/
  length_eq : out.length = records.length
  /-- Each is made of the input record in the same place. -/
  updates : ∀ i record fields updated, records[i]? = some record →
    out[i]? = some (fields, updated) →
      plan.Updates assignments index record (i + 1) fields updated

variable {plan : Plan} {assignments : List Assignment} {index : Option JoinIndex}
  {record : Record} {number : Nat}

section Updates

variable [Hashing]

/-- An updated record is as wide as it was. -/
theorem Updates.length_eq {fields : Record} {updated : Bool}
    (h : plan.Updates assignments index record number fields updated) :
    fields.length = record.length := by
  cases h with
  | unmatched => rfl
  | unselected => rfl
  | assigned _ _ hfields => exact hfields.length_eq

theorem AreUpdates.append {records : List Record} {out : List (Record × Bool)}
    (h : plan.AreUpdates assignments index records out) {fields : Record} {updated : Bool}
    (hnext : plan.Updates assignments index record (records.length + 1) fields updated) :
    plan.AreUpdates assignments index (records ++ [record]) (out ++ [(fields, updated)]) where
  length_eq := by simp [h.length_eq]
  updates i other fields' updated' hrecord hout := by
    have hlength := h.length_eq
    by_cases hi : i < records.length
    · rw [List.getElem?_append_left hi] at hrecord
      rw [List.getElem?_append_left (by omega)] at hout
      exact h.updates i other fields' updated' hrecord hout
    · have hlast : i = records.length := by
        have := (List.getElem?_eq_some_iff.mp hrecord).1
        simp only [List.length_append, List.length_singleton] at this
        omega
      subst hlast
      rw [← hlength, List.getElem?_concat_length] at hout
      rw [List.getElem?_concat_length] at hrecord
      cases hrecord
      cases hout
      exact hnext

theorem AreUpdates.map_length_eq {records : List Record} {out : List (Record × Bool)}
    (h : plan.AreUpdates assignments index records out) :
    (out.map fun row => row.1.length) = records.map List.length := by
  apply List.ext_getElem
  · simp [h.length_eq]
  · intro i hout hrecords
    simp only [List.length_map] at hout hrecords
    have hupdates := h.updates i records[i] out[i].1 out[i].2
      (List.getElem?_eq_getElem hrecords) (List.getElem?_eq_getElem hout)
    simpa using hupdates.length_eq

end Updates

/-! ## The run -/

section Run

variable {τ : Type} [Hashing] [RecordSink τ] {sink : τ}

/-- With no stages before the sink a record is written at once. -/
theorem write_eq (hsink : RecordSink.Willing sink) {written : List Record}
    {progress : Progress τ} (h : progress.output = ⟨[], .after sink written, false⟩)
    (fields : Record) :
    progress.write fields = (.ok .more, { progress with
      output := ⟨[], .after sink (written ++ [fields]), false⟩ }) := by
  have hrecord : (OutputRow.plain fields).record = .ok fields := rfl
  have hwrite := Outlet.write_after hsink hrecord written
  simp [Progress.write, Progress.writeAll, h, Output.writeAll, Output.passAll, Output.pass,
    Stage.acceptAll, Outlet.receive, hwrite]

/-- A run that has written some records, with no stages before the sink. -/
structure HasWritten (sink : τ) (out : List (Record × Bool)) (progress : Progress τ) : Prop where
  output : progress.output = ⟨[], .after sink (out.map Prod.fst), false⟩
  updated : progress.updated = out.countP Prod.snd

omit [Hashing] in
/-- A record that is written as it was read does not count as updated. -/
theorem HasWritten.unchanged {out : List (Record × Bool)} {progress : Progress τ}
    (h : HasWritten sink out progress) (fields : Record) :
    HasWritten sink (out ++ [(fields, false)]) { progress with
      output := ⟨[], .after sink (out.map Prod.fst ++ [fields]), false⟩ } :=
  ⟨by simp, by simp [h.updated]⟩

/-- The new record for a row is written in place of the input record. -/
theorem updates_of_updateRow (hsink : RecordSink.Willing sink) {out : List (Record × Bool)}
    {progress progress' : Progress τ} {demand : Demand} {partner : Option Partner}
    (hprogress : HasWritten sink out progress)
    (hrows : StandsIn record number index [⟨record, number, partner⟩])
    (h : plan.updateRow assignments ⟨record, number, partner⟩ progress =
      (.ok demand, progress')) :
    demand = .more ∧ progress'.read = progress.read ∧ ∃ fields updated,
      plan.Updates assignments index record number fields updated ∧
        HasWritten sink (out ++ [(fields, updated)]) progress' := by
  unfold updateRow at h
  split at h
  · cases h
  · next hupdate =>
    obtain ⟨selected, hselects, hupdate⟩ := bind_eq_ok_iff.mp hupdate
    cases selected with
    | true =>
      obtain ⟨updated, -, hupdate⟩ := bind_eq_ok_iff.mp hupdate
      cases hupdate
    | false =>
      rw [write_eq hsink hprogress.output] at h
      cases h
      exact ⟨rfl, rfl, record, false, .unselected hrows (selects_eq_false_iff.mp hselects),
        hprogress.unchanged record⟩
  · next updated hupdate =>
    obtain ⟨selected, hselects, hupdate⟩ := bind_eq_ok_iff.mp hupdate
    cases selected with
    | false => cases hupdate
    | true =>
      obtain ⟨updated', hassign, hupdate⟩ := bind_eq_ok_iff.mp hupdate
      cases hupdate
      have houtput : (progress.countUpdate updated).output = progress.output := rfl
      rw [write_eq hsink (houtput.trans hprogress.output)] at h
      cases h
      refine ⟨rfl, rfl, updated.fields, true, .assigned hrows ?_ ?_, ?_⟩
      · exact selects_eq_true_iff.mp hselects
      · exact assigned_of_assignAll hassign
      · exact ⟨by simp, by simp [Progress.countUpdate, hprogress.updated]⟩

/-- An input record with at most one partner is written, updated or not. -/
theorem updates_of_updateRecord (hsink : RecordSink.Willing sink)
    {out : List (Record × Bool)} {progress progress' : Progress τ} {demand : Demand}
    (hprogress : HasWritten sink out progress)
    (h : plan.updateRecord assignments index record number progress = (.ok demand, progress')) :
    demand = .more ∧ progress'.read = progress.read ∧ ∃ fields updated,
      plan.Updates assignments index record number fields updated ∧
        HasWritten sink (out ++ [(fields, updated)]) progress' := by
  cases index with
  | none => exact updates_of_updateRow hsink hprogress .alone h
  | some index =>
    unfold updateRecord at h
    dsimp only at h
    split at h
    · cases h
    · next hlookup =>
      have hrows : StandsIn record number (some index) [] :=
        .joined (JoinIndex.lookup_of_lookupOne hlookup)
      rw [write_eq hsink hprogress.output] at h
      cases h
      exact ⟨rfl, rfl, record, false, .unmatched hrows, hprogress.unchanged record⟩
    · next partner hlookup =>
      have hrows : StandsIn record number (some index) [⟨record, number, some partner⟩] :=
        .joined (JoinIndex.lookup_of_lookupOne hlookup)
      exact updates_of_updateRow hsink hprogress hrows h

/-- The records that have been read, and what has been made of them. -/
def HasUpdated (plan : Plan) (assignments : List Assignment) (index : Option JoinIndex)
    (sink : τ) (records : List Record) (progress : Progress τ) : Prop :=
  ∃ out, plan.AreUpdates assignments index records out ∧ HasWritten sink out progress ∧
    progress.read = records.length

theorem HasUpdated.takeRecord (hupdate : plan.statement = .update assignments)
    (hsink : RecordSink.Willing sink) {records : List Record}
    {progress progress' : Progress τ} {demand : Demand}
    (h : HasUpdated plan assignments index sink records progress)
    (htake : plan.takeRecord index (1 + records.length) record progress =
      (.ok demand, progress')) :
    demand = .more ∧ HasUpdated plan assignments index sink (records ++ [record]) progress' := by
  obtain ⟨out, hupdates, hwritten, -⟩ := h
  unfold Plan.takeRecord at htake
  simp only [hupdate] at htake
  rw [Nat.add_comm] at htake
  have hread : HasWritten sink out { progress with read := records.length + 1 } :=
    ⟨hwritten.output, hwritten.updated⟩
  obtain ⟨hmore, hnumber, fields, updated, hrecord, hwritten'⟩ :=
    updates_of_updateRecord hsink hread htake
  exact ⟨hmore, out ++ [(fields, updated)], hupdates.append hrecord, hwritten', by simp [hnumber]⟩

/-- The output of an update is ended behind the last record. -/
theorem finish_of_hasWritten {out : List (Record × Bool)} {progress : Progress τ}
    (h : HasWritten sink out progress) :
    ∃ ended, progress.output.finish =
        ((RecordSink.finish (RecordSink.writeAll sink (out.map Prod.fst))).1.mapError .table,
          ended) ∧
      ended.outlet.sink = (RecordSink.finish (RecordSink.writeAll sink (out.map Prod.fst))).2 ∧
      ended.written = out.length := by
  refine ⟨⟨[], ⟨(RecordSink.finish (RecordSink.writeAll sink (out.map Prod.fst))).2, false,
    (out.map Prod.fst).length⟩, true⟩, ?_, rfl, List.length_map _⟩
  rw [h.output, Output.finish, Output.drainAll]
  rfl

omit [Hashing] in
/-- The output of a query that updates records has no stages. -/
theorem ofPlan_eq_nil {query : List Char} {input : ColumnMap} {join : Option ColumnMap}
    {scope : Scope} (hplan : ofQuery query input join scope = .ok plan)
    (hupdate : plan.statement = .update assignments) : Stage.ofPlan plan = [] := by
  have hisUpdate : plan.isUpdate := by
    rw [isUpdate, hupdate]
    rfl
  obtain ⟨horder, hgroup, hdistinct, hlimit⟩ := plain_of_isUpdate hplan hisUpdate
  simp [Stage.ofPlan, isAggregate, horder, hgroup, hdistinct, hlimit, hupdate,
    Statement.hasAggregate]

variable {σ : Type} [RecordSource σ]

/-- An update whose input has been read has written what it makes of every record. -/
theorem exists_hasUpdated_of_streamed_ok {input : σ} {demand : Demand}
    (hstages : Stage.ofPlan plan = []) (hupdate : plan.statement = .update assignments)
    (hsink : RecordSink.Willing (plan.opened sink))
    (h : (plan.streamed index input sink).outcome = .ok demand) :
    ∃ records, RecordSource.Yields input records ∧
      HasUpdated plan assignments index (plan.opened sink) records
        (plan.streamed index input sink).state := by
  have hstart : HasUpdated plan assignments index (plan.opened sink) []
      (Progress.start (Stage.ofPlan plan) (plan.opened sink)) := by
    rw [hstages]
    exact ⟨[], ⟨rfl, by simp⟩, ⟨rfl, rfl⟩, rfl⟩
  exact exists_yields_of_feed_ok (HasUpdated.takeRecord hupdate hsink) hstart h

end Run

/-! ## The order of assignments -/

/-- The plan with other assignments. -/
def assigning (plan : Plan) (assignments : List Assignment) : Plan :=
  { plan with statement := .update assignments }

/-- A row that is updated is updated alike if assignments to different fields are carried
out in another order. -/
theorem update_assigning {assignments' : List Assignment} {row : Row}
    {updated? : Option Updated} (hperm : assignments.Perm assignments')
    (hnodup : (assignments.map Assignment.index).Nodup)
    (h : plan.update assignments row = .ok updated?) :
    (plan.assigning assignments').update assignments' row = .ok updated? := by
  obtain ⟨selected, hselects, h⟩ := bind_eq_ok_iff.mp h
  refine bind_eq_ok_iff.mpr ⟨selected, hselects, ?_⟩
  cases selected with
  | false => exact h
  | true =>
    obtain ⟨updated, hassign, h⟩ := bind_eq_ok_iff.mp h
    exact bind_eq_ok_iff.mpr ⟨updated, foldlM_assign_perm hperm hnodup hassign, h⟩

section Order

variable {τ : Type} [Hashing] [RecordSink τ]

theorem updateRow_assigning {assignments' : List Assignment} {row : Row}
    {progress progress' : Progress τ} {demand : Demand}
    (hperm : assignments.Perm assignments')
    (hnodup : (assignments.map Assignment.index).Nodup)
    (h : plan.updateRow assignments row progress = (.ok demand, progress')) :
    (plan.assigning assignments').updateRow assignments' row progress =
      (.ok demand, progress') := by
  unfold updateRow at h ⊢
  cases hupdate : plan.update assignments row with
  | error fault =>
    rw [hupdate] at h
    cases h
  | ok updated? =>
    rw [hupdate] at h
    rw [update_assigning hperm hnodup hupdate]
    exact h

theorem takeRecord_assigning {assignments' : List Assignment}
    (hupdate : plan.statement = .update assignments) (hperm : assignments.Perm assignments')
    (hnodup : (assignments.map Assignment.index).Nodup) {progress progress' : Progress τ}
    {demand : Demand}
    (h : plan.takeRecord index number record progress = (.ok demand, progress')) :
    (plan.assigning assignments').takeRecord index number record progress =
      (.ok demand, progress') := by
  unfold takeRecord at h ⊢
  simp only [hupdate] at h
  show (plan.assigning assignments').updateRecord assignments' index record number _ = _
  unfold updateRecord at h ⊢
  cases index with
  | none => exact updateRow_assigning hperm hnodup h
  | some index =>
    dsimp only at h ⊢
    rcases hlookup : index.lookupOne record number with e | _ | partner
    all_goals rw [hlookup] at h
    · exact h
    · exact h
    · exact updateRow_assigning hperm hnodup h

omit [Hashing] in
theorem ofPlan_assigning (hupdate : plan.statement = .update assignments)
    (assignments' : List Assignment) :
    Stage.ofPlan (plan.assigning assignments') = Stage.ofPlan plan := by
  have haggregate : (plan.assigning assignments').isAggregate = plan.isAggregate := by
    simp [isAggregate, assigning, hupdate, Statement.hasAggregate]
  rw [Stage.ofPlan, haggregate]
  rfl

variable {σ ρ : Type} [RecordSource σ]

theorem stream_assigning {assignments' : List Assignment} {input : σ} {rest : Option ρ}
    {sink : τ} {stats : RunStats} (hupdate : plan.statement = .update assignments)
    (hperm : assignments.Perm assignments')
    (hnodup : (assignments.map Assignment.index).Nodup)
    (h : (plan.stream index rest input sink).outcome = .ok stats) :
    (plan.assigning assignments').stream index rest input sink =
      plan.stream index rest input sink := by
  obtain ⟨demand, hstreamed⟩ := exists_streamed_ok_of_stream_ok h
  have heq : (plan.assigning assignments').streamed index input sink =
      plan.streamed index input sink := by
    unfold streamed at hstreamed ⊢
    rw [ofPlan_assigning hupdate]
    exact feed_eq_of_agree (takeRecord_assigning hupdate hperm hnodup) hstreamed
  rw [stream_eq, stream_eq, heq]

/-- A run without an error is the same if assignments to different fields are carried out
in another order. -/
theorem run_assigning [RecordSource ρ] {assignments' : List Assignment} {input : σ}
    {join : Option ρ} {sink : τ} {stats : RunStats}
    (hupdate : plan.statement = .update assignments)
    (hperm : assignments.Perm assignments')
    (hnodup : (assignments.map Assignment.index).Nodup)
    (hrun : (plan.run input join sink).outcome = .ok stats) :
    (plan.assigning assignments').run input join sink = plan.run input join sink := by
  have hspec : (plan.assigning assignments').join = plan.join := rfl
  unfold run at hrun ⊢
  rw [hspec]
  split at hrun
  · exact stream_assigning hupdate hperm hnodup hrun
  · rfl
  · next spec table _ =>
    dsimp only at hrun ⊢
    cases hbuilt : (JoinIndex.build spec table).outcome with
    | error e => rfl
    | ok demand =>
      simp only [hbuilt] at hrun ⊢
      exact stream_assigning hupdate hperm hnodup hrun

end Order

/-- A query that updates records writes every input record once, in its turn, with new
values in the fields that are assigned if it has a partner and meets the condition, and as
it was read if not.  Assignments to different fields may be carried out in any order. -/
theorem run_writes_updates [Hashing] {σ ρ τ : Type} [RecordSource σ] [RecordSource ρ] [RecordSink τ]
    {query : List Char} {columns : ColumnMap} {joinColumns : Option ColumnMap} {scope : Scope}
    {input : σ} {join : Option ρ} {sink : τ} {stats : RunStats}
    (hplan : ofQuery query columns joinColumns scope = .ok plan)
    (hupdate : plan.statement = .update assignments)
    (hsink : RecordSink.Willing (plan.opened sink))
    (hrun : ((Execution.ofPlan plan).run input join sink).1.outcome = .ok stats) :
    (∃ records index out, RecordSource.Yields input records ∧ plan.JoinsBy join index ∧
      plan.AreUpdates assignments index records out ∧
      out.map (fun row => row.1.length) = records.map List.length ∧
      ((Execution.ofPlan plan).run input join sink).1.sink =
        (RecordSink.finish (RecordSink.writeAll (plan.opened sink) (out.map Prod.fst))).2 ∧
      stats.read = records.length ∧ stats.written = records.length ∧
      stats.updated = out.countP Prod.snd) ∧
    ∀ assignments', assignments.Perm assignments' →
      (assignments.map Assignment.index).Nodup →
        ((Execution.ofPlan (plan.assigning assignments')).run input join sink).1 =
          ((Execution.ofPlan plan).run input join sink).1 := by
  have hresult : ((Execution.ofPlan plan).run input join sink).1 = plan.run input join sink := rfl
  rw [hresult] at hrun ⊢
  refine ⟨?_, fun assignments' hperm hnodup => run_assigning hupdate hperm hnodup hrun⟩
  obtain ⟨index, rest, hindex, hstream⟩ := exists_joinsBy_of_run_ok hrun
  rw [hstream] at hrun ⊢
  obtain ⟨demand, hstreamed⟩ := exists_streamed_ok_of_stream_ok hrun
  obtain ⟨records, hyields, out, hupdates, hwritten, hread⟩ :=
    exists_hasUpdated_of_streamed_ok (ofPlan_eq_nil hplan hupdate) hupdate hsink hstreamed
  obtain ⟨left, hfinish⟩ := exists_stream_eq_finishRun hstreamed rfl rest
  obtain ⟨ended, hended, hendedSink, hendedWritten⟩ := finish_of_hasWritten hwritten
  rw [hfinish, finishRun, hended] at hrun ⊢
  obtain ⟨_, -, rfl⟩ := map_eq_ok_iff.mp hrun
  exact ⟨records, index, out, hyields, hindex, hupdates, hupdates.map_length_eq, hendedSink,
    hread, hendedWritten.trans hupdates.length_eq, hwritten.updated⟩

/-- A query that assigns a field of the partner and an absent value, under a condition. -/
theorem ofQuery_fromPartner :
    ofQuery "update a1=b2,a2=None join b on a1==b1 where a1!=2".toList
        ⟨[("a1", 0), ("a2", 1)], none⟩ (some ⟨[("b1", 0), ("b2", 1)], none⟩) Scope.empty =
      .ok ⟨.update [⟨0, .field .join 1 "b2"⟩, ⟨1, .literal .null⟩],
        some (.binary .ne (.field .input 0 "a1") (.literal (.int 2))),
        some ⟨"b", .inner, [⟨.field .input 0 "a1", .field .join 0 "b1"⟩]⟩, none, false, none, .no,
        none, none, 0, none⟩ := by
  have hfound : ClauseKind.all.mapM
      (KeywordPlace.one? "update a1=b2,a2=None join b on a1==b1 where a1!=2".toList) =
        .ok [some ⟨.join, .inner, 21, 25⟩, none, none, some ⟨.condition, .inner, 38, 43⟩,
          some ⟨.update, .inner, 0, 6⟩, none, none, none] := rfl
  have hplaces : KeywordPlace.all "update a1=b2,a2=None join b on a1==b1 where a1!=2".toList =
      .ok [⟨.update, .inner, 0, 6⟩, ⟨.join, .inner, 21, 25⟩, ⟨.condition, .inner, 38, 43⟩] :=
    KeywordPlace.all_eq_ok hfound (by decide) (by decide)
  have hlocate : Clauses.locate "update a1=b2,a2=None join b on a1==b1 where a1!=2".toList =
      .ok ⟨none, some "a1=b2,a2=None".toList, some "a1!=2".toList, none, none,
        some ⟨.inner, "b on a1==b1".toList⟩, none, none⟩ := by
    rw [Clauses.locate_eq_ofPlaces hplaces]
    decide +kernel
  have hisolated : IsolatedQuery.ofQuery
      "update a1=b2,a2=None join b on a1==b1 where a1!=2".toList =
        .ok ⟨"update a1=b2,a2=None join b on a1==b1 where a1!=2".toList, []⟩ := by
    decide +kernel
  rw [ofQuery_eq_of_clauses hisolated (by decide +kernel) hlocate,
    visibleColumns_eq_ok rfl (by decide)]
  decide +kernel

/-- A record that is updated, one that does not meet the condition and one without a partner,
whichever field is assigned first. -/
theorem run_writes_updates_fromPartner :
    ∃ plan first second,
      ofQuery "update a1=b2,a2=None join b on a1==b1 where a1!=2".toList
        ⟨[("a1", 0), ("a2", 1)], none⟩ (some ⟨[("b1", 0), ("b2", 1)], none⟩) Scope.empty =
          .ok plan ∧
      plan.statement = .update [first, second] ∧
      let records : List Record :=
        [[.int 1, .text "x"], [.int 2, .text "y"], [.int 9, .text "z"]]
      let run := fun plan : Plan => ((Execution.ofPlan plan).run
        (MemoryTable.ofRecords none records)
        (some (MemoryTable.ofRecords none [[.int 1, .int 5], [.int 2, .int 6]]))
        (MemorySink.empty none)).1
      (∃ index out, plan.AreUpdates [first, second] index records out ∧
        out.map Prod.fst =
          [[.int 5, .text ""], [.int 2, .text "y"], [.int 9, .text "z"]] ∧
        out.countP Prod.snd = 1) ∧
      (run plan).sink.records =
        [[.int 5, .text ""], [.int 2, .text "y"], [.int 9, .text "z"]] ∧
      (run (plan.assigning [second, first])).sink.records =
        [[.int 5, .text ""], [.int 2, .text "y"], [.int 9, .text "z"]] := by
  obtain ⟨⟨records, index, out, hyields, -, hupdates, -, hsink, -, -, hcount⟩, horder⟩ :=
    @run_writes_updates _ _ _ MemoryTable MemoryTable MemorySink _ _ _ _ _ _ _
      (MemoryTable.ofRecords none
        [[.int 1, .text "x"], [.int 2, .text "y"], [.int 9, .text "z"]])
      (some (MemoryTable.ofRecords none [[.int 1, .int 5], [.int 2, .int 6]]))
      (MemorySink.empty none) ⟨3, 3, 1, 2,
        ["NULL values assigned by UPDATE were replaced by empty strings in 1 records"]⟩
      ofQuery_fromPartner rfl (MemorySink.willing rfl) (by decide +kernel)
  obtain rfl := hyields.pulled_eq.symm.trans (MemoryTable.yields_records _).pulled_eq
  refine ⟨_, _, _, ofQuery_fromPartner, rfl, ⟨index, out, hupdates, ?_, hcount.symm⟩,
    by decide +kernel, ?_⟩
  · have hrecords := congrArg MemorySink.records hsink
    rw [MemorySink.records_finish_writeAll] at hrecords
    refine hrecords.symm.trans ?_
    decide +kernel
  · dsimp only
    rw [horder _ (List.Perm.swap _ _ _) (by decide)]
    decide +kernel

end Plan
end TableQuery
