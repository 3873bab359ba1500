import TableQuery.Proofs.Except
import TableQuery.Run.Output
import TableQuery.Table.Memory

/-!
# What a chain of stages lets through

A stage is characterised by what it lets through of the rows that are still to come, the
rows that it holds back included.  A chain lets through what its last stage does.  Once a
stage has said that no more rows are wanted, further rows make no difference, so that a
run that stops early writes the same records as one that goes on.
-/

namespace TableQuery

/-! ## Sinks that take everything -/

namespace RecordSink

variable {σ : Type} [RecordSink σ]

/-- The sink after some records, whatever it says to them. -/
def writeAll (sink : σ) (records : List Record) : σ :=
  records.foldl (fun sink record => (write record sink).2) sink

/-- A sink that never refuses a record and never wants the records to stop. -/
def Willing (sink : σ) : Prop :=
  ∀ records record, (write record (writeAll sink records)).1 = .ok .more

theorem writeAll_append_singleton (sink : σ) (records : List Record) (record : Record) :
    writeAll sink (records ++ [record]) = (write record (writeAll sink records)).2 := by
  simp [writeAll]

end RecordSink

namespace MemorySink

theorem writeAll_eq (sink : MemorySink) (records : List Record) :
    RecordSink.writeAll sink records = { sink with latest := records.reverse ++ sink.latest } := by
  induction records generalizing sink with
  | nil => rfl
  | cons record records ih =>
    show RecordSink.writeAll (write record sink).2 records = _
    rw [ih]
    simp [write]

/-- Output that has ended holds the records that were written, behind those that it held. -/
theorem records_finish_writeAll (sink : MemorySink) (records : List Record) :
    (RecordSink.finish (RecordSink.writeAll sink records)).2.records =
      sink.records ++ records := by
  rw [writeAll_eq]
  show (records.reverse ++ sink.latest).reverse = sink.latest.reverse ++ records
  rw [List.reverse_append, List.reverse_reverse]

/-- Output in memory without a limit never refuses. -/
theorem willing {sink : MemorySink} (h : sink.capacity = none) : RecordSink.Willing sink := by
  intro records record
  rw [writeAll_eq]
  show (write record _).1 = _
  simp [write, h]

end MemorySink

namespace Outlet

variable {σ : Type} [RecordSink σ]

/-- The way to a sink after some records have been written to it. -/
def after (sink : σ) (records : List Record) : Outlet σ :=
  ⟨RecordSink.writeAll sink records, false, records.length⟩

theorem write_after {sink : σ} (hsink : RecordSink.Willing sink) {row : OutputRow}
    {record : Record} (hrow : row.record = .ok record) (records : List Record) :
    (after sink records).write row = (.ok .more, after sink (records ++ [record])) := by
  have hwrite := hsink records record
  rcases hresult : RecordSink.write record (RecordSink.writeAll sink records) with ⟨_, sink'⟩
  rw [hresult] at hwrite
  obtain rfl := hwrite
  simp [Outlet.write, after, hrow, hresult, RecordSink.writeAll_append_singleton]

end Outlet

/-! ## Flows -/

/-- The rows that are still wanted of those to come. -/
def Demand.wanted : Demand → List OutputRow → List OutputRow
  | more, rows => rows
  | stop, _ => []

@[simp] theorem Demand.wanted_nil (demand : Demand) : demand.wanted [] = [] := by
  cases demand <;> rfl

namespace Flow

/-- The row that passes, if one does. -/
def rows : Flow → List OutputRow
  | forward row => [row]
  | last row => [row]
  | kept => []
  | closed => []

/-- Whether no later row will pass. -/
def ends : Flow → Bool
  | last _ => true
  | closed => true
  | forward _ => false
  | kept => false

theorem mapM_record_singleton {row : OutputRow} {record : Record}
    (hrow : row.record = .ok record) : [row].mapM OutputRow.record = .ok [record] := by
  rw [List.mapM_cons, hrow]
  rfl

@[simp] theorem rows_asLast (flow : Flow) : flow.asLast.rows = flow.rows := by
  cases flow <;> rfl

end Flow

/-! ## Stages -/

namespace Stage

/-- Whether a stage needs the record of each row, which a row that goes into a group lacks. -/
def needsRecord : Stage → Bool
  | sorted _ _ | unique _ | counted _ => true
  | groups _ _ | top _ _ => false

variable [Hashing]

/-- What a stage can do with a row: the outcome, and the stage that is left. -/
inductive Takes : Stage → OutputRow → Except DataFault Flow → Stage → Prop
  | beside {held : Groups} {conflict : Option AggregateConflict} {row : OutputRow}
    (hrow : ∀ inGroup, row ≠ .grouped inGroup) :
    Takes (groups held conflict) row (.ok (.forward row)) (groups held conflict)
  | conflict (held : Groups) (clause : AggregateConflict) (row : GroupRow) :
    Takes (groups held (some clause)) (.grouped row) (.error (.conflict clause row.record))
      (groups held (some clause))
  | grouped {held held' : Groups} {row : GroupRow} (hfeed : held.feed row = (.ok (), held')) :
    Takes (groups held none) (.grouped row) (.ok .kept) (groups held' none)
  | misfit {held held' : Groups} {row : GroupRow} {fault : DataFault}
    (hfeed : held.feed row = (.error fault, held')) :
    Takes (groups held none) (.grouped row) (.error fault) (groups held' none)
  | refused {stage : Stage} {row : OutputRow} {fault : DataFault} (hstage : stage.needsRecord)
    (hrow : row.record = .error fault) : Takes stage row (.error fault) stage
  | sorted (reverse : Bool) (latest : List (List Value × Record)) {row : OutputRow}
    {record : Record} (hrow : row.record = .ok record) :
    Takes (sorted reverse latest) row (.ok .kept) (sorted reverse ((row.key, record) :: latest))
  | seen {seen : Keyed Unit} {row : OutputRow} {record : Record} (hrow : row.record = .ok record)
    (hseen : seen.contains record) : Takes (unique seen) row (.ok .kept) (unique seen)
  | unseen {seen : Keyed Unit} {row : OutputRow} {record : Record}
    (hrow : row.record = .ok record) (hseen : ¬seen.contains record) :
    Takes (unique seen) row (.ok (.forward (.plain record)))
      (unique (seen.alter record fun _ => ()))
  | counted (seen : Keyed Nat) {row : OutputRow} {record : Record}
    (hrow : row.record = .ok record) :
    Takes (counted seen) row (.ok .kept) (counted (seen.alter record fun n => n.getD 0 + 1))
  | closed {limit passed : Nat} (row : OutputRow) (h : limit ≤ passed) :
    Takes (top limit passed) row (.ok .closed) (top limit passed)
  | last {limit passed : Nat} (row : OutputRow) (h : passed + 1 = limit) :
    Takes (top limit passed) row (.ok (.last row)) (top limit (passed + 1))
  | below {limit passed : Nat} (row : OutputRow) (h : passed + 1 < limit) :
    Takes (top limit passed) row (.ok (.forward row)) (top limit (passed + 1))

theorem takes_accept (stage : Stage) (row : OutputRow) :
    stage.Takes row (stage.accept row).1 (stage.accept row).2 := by
  cases stage with
  | groups held conflict =>
    cases row with
    | plain | keyed => exact .beside nofun
    | grouped row =>
      cases conflict with
      | some clause => exact .conflict held clause row
      | none =>
        unfold accept acceptGroup
        dsimp only
        rcases hfeed : held.feed row with ⟨fault | _, held'⟩
        · exact .misfit hfeed
        · exact .grouped hfeed
  | sorted reverse latest =>
    unfold accept
    cases hrow : row.record with
    | error fault => exact .refused rfl hrow
    | ok record => exact .sorted reverse latest hrow
  | unique seen =>
    unfold accept acceptUnique
    cases hrow : row.record with
    | error fault => exact .refused rfl hrow
    | ok record =>
      by_cases hseen : seen.contains record
      · simpa [hseen] using Takes.seen hrow hseen
      · simpa [hseen] using Takes.unseen hrow hseen
  | counted seen =>
    unfold accept
    cases hrow : row.record with
    | error fault => exact .refused rfl hrow
    | ok record => exact .counted seen hrow
  | top limit passed =>
    unfold accept acceptTop
    dsimp only
    split
    · next hclosed => exact .closed row hclosed
    · next hopen =>
      split
      · next hlast => exact .last row hlast
      · next hmore => exact .below row (by omega)

/-- A stage that takes all the rows given and then is emptied lets through these rows. -/
def Emits : Stage → List OutputRow → List OutputRow → Prop
  | stage, [], out => ∃ records stage', stage.drain = (.ok records, stage') ∧
      out = records.map .plain
  | stage, row :: rows, out => ∃ flow stage' rest, stage.accept row = (.ok flow, stage') ∧
      Emits stage' rows rest ∧ out = flow.rows ++ rest

/-- A chain of stages lets through these records of the rows given. -/
def EmitsAll : List Stage → List OutputRow → List Record → Prop
  | [], rows, records => rows.mapM OutputRow.record = .ok records
  | stage :: stages, rows, records => ∃ between, stage.Emits rows between ∧
      EmitsAll stages between records

/-- Whether a stage does not group rows. -/
def isFlat : Stage → Bool
  | groups _ _ => false
  | _ => true

/-- A limit that has been reached lets nothing through. -/
theorem eq_nil_of_emits_top {limit passed : Nat} (h : limit ≤ passed) {rows out : List OutputRow}
    (hemits : (top limit passed).Emits rows out) : out = [] := by
  induction rows generalizing out with
  | nil =>
    obtain ⟨records, stage', hdrain, rfl⟩ := hemits
    simp only [drain, Prod.mk.injEq, Except.ok.injEq] at hdrain
    simp [← hdrain.1]
  | cons row rows ih =>
    obtain ⟨flow, stage', rest, haccept, hrest, rfl⟩ := hemits
    simp only [accept, acceptTop, if_pos h, Prod.mk.injEq, Except.ok.injEq] at haccept
    obtain ⟨rfl, rfl⟩ := haccept
    simpa [Flow.rows] using ih hrest

theorem emits_top_nil (limit passed : Nat) : (top limit passed).Emits [] [] :=
  ⟨[], top limit passed, rfl, rfl⟩

/-- After a row, a stage other than a grouping one holds nothing back if the row has
passed, and lets nothing more through if it has said so. -/
theorem accept_cases {stage stage' : Stage} {row : OutputRow} {flow : Flow}
    (hflat : stage.isFlat) (haccept : stage.accept row = (.ok flow, stage')) :
    stage'.isFlat ∧
      (∀ row', flow = .forward row' → stage'.Emits [] []) ∧
      (flow.ends → ∀ rows out, stage'.Emits rows out → stage'.Emits [] out) := by
  have htakes := takes_accept stage row
  rw [haccept] at htakes
  have hspent : ∀ {limit passed : Nat}, limit ≤ passed → ∀ rows out,
      (top limit passed).Emits rows out → (top limit passed).Emits [] out := by
    intro limit passed h rows out hemits
    rw [eq_nil_of_emits_top h hemits]
    exact emits_top_nil limit passed
  cases htakes with
  | beside | grouped => cases hflat
  | sorted | counted => exact ⟨rfl, nofun, nofun⟩
  | seen => exact ⟨rfl, nofun, nofun⟩
  | unseen => exact ⟨rfl, fun _ _ => ⟨[], _, rfl, rfl⟩, nofun⟩
  | closed _ h => exact ⟨rfl, nofun, fun _ => hspent h⟩
  | last _ h => exact ⟨rfl, nofun, fun _ => hspent (Nat.le_of_eq h.symm)⟩
  | below => exact ⟨rfl, fun _ _ => emits_top_nil _ _, nofun⟩

/-! ## Chains -/

/-- A chain takes a row as its stages do.  If it says that no later row will pass, what it
lets through does not depend on later rows. -/
theorem acceptAll_spec {stages : List Stage} (hflat : ∀ stage ∈ stages, stage.isFlat)
    {row : OutputRow} {rows : List OutputRow} {out : List Record}
    (hemits : EmitsAll stages (row :: rows) out) :
    ∃ flow stages' now later, acceptAll row stages = (.ok flow, stages') ∧
      flow.rows.mapM OutputRow.record = .ok now ∧ out = now ++ later ∧
      (∀ stage ∈ stages', stage.isFlat) ∧ EmitsAll stages' rows later ∧
      (flow.ends → EmitsAll stages' [] later) := by
  induction stages generalizing row rows out with
  | nil =>
    rw [EmitsAll, List.mapM_cons] at hemits
    obtain ⟨record, hrecord, hemits⟩ := bind_eq_ok_iff.mp hemits
    obtain ⟨later, hlater, hemits⟩ := bind_eq_ok_iff.mp hemits
    cases hemits
    exact ⟨.forward row, [], [record], later, rfl, Flow.mapM_record_singleton hrecord, rfl,
      hflat, hlater, nofun⟩
  | cons stage stages ih =>
    obtain ⟨between, ⟨flow, stage', rest, haccept, hrest, rfl⟩, hbetween⟩ := hemits
    obtain ⟨hstage', hforward, hends⟩ := accept_cases (hflat stage List.mem_cons_self) haccept
    have hstages : ∀ stage ∈ stages, stage.isFlat := fun other hother =>
      hflat other (List.mem_cons_of_mem _ hother)
    cases flow with
    | forward row' =>
      -- What ends here is a stage further on, and this one has nothing left for it.
      obtain ⟨flow, stages', now, later, hacceptAll, hnow, rfl, hflat', hlater, hsettled⟩ :=
        ih hstages hbetween
      exact ⟨flow, stage' :: stages', now, later, by simp [acceptAll, haccept, hacceptAll], hnow,
        rfl, List.forall_mem_cons.mpr ⟨hstage', hflat'⟩, ⟨rest, hrest, hlater⟩,
        fun h => ⟨[], hforward row' rfl, hsettled h⟩⟩
    | last row' =>
      obtain ⟨flow, stages', now, later, hacceptAll, hnow, rfl, hflat', hlater, -⟩ :=
        ih hstages hbetween
      exact ⟨flow.asLast, stage' :: stages', now, later,
        by simp [acceptAll, haccept, hacceptAll, Except.map], by simpa using hnow,
        rfl, List.forall_mem_cons.mpr ⟨hstage', hflat'⟩, ⟨rest, hrest, hlater⟩,
        fun _ => ⟨rest, hends rfl rows rest hrest, hlater⟩⟩
    | kept =>
      exact ⟨.kept, stage' :: stages, [], out, by simp [acceptAll, haccept], rfl, rfl,
        List.forall_mem_cons.mpr ⟨hstage', hstages⟩, ⟨rest, hrest, hbetween⟩, nofun⟩
    | closed =>
      exact ⟨.closed, stage' :: stages, [], out, by simp [acceptAll, haccept], rfl, rfl,
        List.forall_mem_cons.mpr ⟨hstage', hstages⟩, ⟨rest, hrest, hbetween⟩,
        fun _ => ⟨rest, hends rfl rows rest hrest, hbetween⟩⟩

end Stage

/-! ## Output -/

namespace Outlet

variable {σ : Type} [RecordSink σ]

theorem receive_after {sink : σ} (hsink : RecordSink.Willing sink) {flow : Flow}
    {now : List Record} (hnow : flow.rows.mapM OutputRow.record = .ok now)
    (before : List Record) :
    (after sink before).receive flow =
      (.ok (if flow.ends then .stop else .more), after sink (before ++ now)) := by
  cases flow with
  | forward row =>
    obtain ⟨record, hrecord, hnow⟩ := bind_eq_ok_iff.mp hnow
    cases hnow
    exact write_after hsink hrecord before
  | last row =>
    obtain ⟨record, hrecord, hnow⟩ := bind_eq_ok_iff.mp hnow
    cases hnow
    simp [receive, write_after hsink hrecord before, Flow.ends, Except.map]
  | kept =>
    cases hnow
    simp [receive, Flow.ends]
  | closed =>
    cases hnow
    simp [receive, Flow.ends]

end Outlet

namespace Output

variable {σ : Type} [RecordSink σ] {sink : σ}

variable [Hashing]

/-- A row on its way writes the first of the records that the chain lets through. -/
theorem pass_spec (hsink : RecordSink.Willing sink) {stages : List Stage}
    (hflat : ∀ stage ∈ stages, stage.isFlat) {row : OutputRow} {rows : List OutputRow}
    {out : List Record} (hemits : Stage.EmitsAll stages (row :: rows) out)
    (before : List Record) :
    ∃ demand stages' now later,
      pass row stages (.after sink before) = (.ok demand, stages', .after sink (before ++ now)) ∧
        out = now ++ later ∧ (∀ stage ∈ stages', stage.isFlat) ∧
        Stage.EmitsAll stages' (demand.wanted rows) later := by
  obtain ⟨flow, stages', now, later, haccept, hnow, rfl, hflat', hlater, hends⟩ :=
    Stage.acceptAll_spec hflat hemits
  refine ⟨if flow.ends then .stop else .more, stages', now, later, ?_, rfl, hflat', ?_⟩
  · simp [pass, haccept, Outlet.receive_after hsink hnow]
  · cases hflow : flow.ends with
    | true => exact hends hflow
    | false => exact hlater

/-- Rows on their way write the first of the records that the chain lets through.  If no
more rows are wanted, those that are still to come make no difference. -/
theorem passAll_spec (hsink : RecordSink.Willing sink) {stages : List Stage}
    (hflat : ∀ stage ∈ stages, stage.isFlat) {rows more : List OutputRow}
    {out : List Record} (hemits : Stage.EmitsAll stages (rows ++ more) out)
    (before : List Record) :
    ∃ demand stages' now later,
      passAll rows stages (.after sink before) =
          (.ok demand, stages', .after sink (before ++ now)) ∧
        out = now ++ later ∧ (∀ stage ∈ stages', stage.isFlat) ∧
        Stage.EmitsAll stages' (demand.wanted more) later := by
  induction rows generalizing stages out before with
  | nil => exact ⟨.more, stages, [], out, by simp [passAll], rfl, hflat, hemits⟩
  | cons row rows ih =>
    obtain ⟨demand, stages', now, later, hpass, rfl, hflat', hlater⟩ :=
      pass_spec hsink hflat hemits before
    cases demand with
    | stop => exact ⟨.stop, stages', now, later, by simp [passAll, hpass], rfl, hflat', hlater⟩
    | more =>
      obtain ⟨demand, stages'', now', later', hpassAll, rfl, hrest⟩ :=
        ih hflat' hlater (before ++ now)
      refine ⟨demand, stages'', now ++ now', later', ?_, by simp, hrest⟩
      simp [passAll, hpass, hpassAll]

/-- Emptying a chain writes the records that it has held back. -/
theorem drainAll_spec (hsink : RecordSink.Willing sink) {stages : List Stage}
    (hflat : ∀ stage ∈ stages, stage.isFlat) {out : List Record}
    (hemits : Stage.EmitsAll stages [] out) (before : List Record) :
    ∃ stages', drainAll stages (.after sink before) =
      (.ok (), stages', .after sink (before ++ out)) := by
  -- The stages that are left have taken rows, so the induction is on their number.
  generalize hlength : stages.length = n
  induction n generalizing stages out before with
  | zero =>
    obtain rfl : stages = [] := List.length_eq_zero_iff.mp hlength
    cases hemits
    exact ⟨[], by simp [drainAll]⟩
  | succ n ih =>
    obtain ⟨stage, stages, rfl⟩ := List.exists_cons_of_length_eq_add_one hlength
    obtain ⟨between, ⟨records, stage', hdrain, rfl⟩, hbetween⟩ := hemits
    rw [← List.append_nil (records.map OutputRow.plain)] at hbetween
    obtain ⟨demand, stages', now, later, hpassAll, rfl, hflat', hlater⟩ :=
      passAll_spec hsink (fun other hother => hflat other (List.mem_cons_of_mem _ hother))
        hbetween before
    rw [Demand.wanted_nil] at hlater
    have hlength' : stages'.length = n := by
      have := length_passAll (records.map OutputRow.plain) stages (Outlet.after sink before)
      rw [hpassAll] at this
      simpa [this] using hlength
    obtain ⟨stages'', hdrainAll⟩ := ih hflat' hlater (before ++ now) hlength'
    refine ⟨stage' :: stages'', ?_⟩
    rw [drainAll]
    simp only [hdrain]
    split
    · next heq => simp [hpassAll] at heq
    · next heq =>
      simp only [hpassAll, Prod.mk.injEq, Except.ok.injEq] at heq
      obtain ⟨rfl, rfl, rfl⟩ := heq
      simp [hdrainAll]

/-- Rows that are sent through a chain whose output is ended then leave in the sink what
the chain lets through, wherever the sending stops. -/
theorem finish_writeAll (hsink : RecordSink.Willing sink) {stages : List Stage}
    (hflat : ∀ stage ∈ stages, stage.isFlat) {rows : List OutputRow} {out : List Record}
    (hemits : Stage.EmitsAll stages rows out) :
    ∃ demand sent ended, (start stages sink).writeAll rows = (.ok demand, sent) ∧
      sent.finish =
        ((RecordSink.finish (RecordSink.writeAll sink out)).1.mapError .table, ended) ∧
      ended.outlet.sink = (RecordSink.finish (RecordSink.writeAll sink out)).2 ∧
      ended.written = out.length := by
  rw [← List.append_nil rows] at hemits
  obtain ⟨demand, stages', now, later, hpassAll, rfl, hflat', hlater⟩ :=
    passAll_spec hsink hflat hemits []
  rw [Demand.wanted_nil] at hlater
  rw [List.nil_append] at hpassAll
  obtain ⟨stages'', hdrainAll⟩ := drainAll_spec hsink hflat' hlater now
  refine ⟨demand, ⟨stages', .after sink now, false⟩, ⟨stages'', { Outlet.after sink (now ++ later)
    with sink := (RecordSink.finish (RecordSink.writeAll sink (now ++ later))).2 }, true⟩,
    ?_, ?_, rfl, rfl⟩
  · show writeAll ⟨stages, .after sink [], false⟩ rows = _
    simp [writeAll, hpassAll]
  · simp only [finish, Bool.false_eq_true, if_false, hdrainAll]
    rfl

end Output
end TableQuery
