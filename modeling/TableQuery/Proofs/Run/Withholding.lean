import TableQuery.Proofs.Query.Equality
import TableQuery.Proofs.Run.Demand
import TableQuery.Proofs.Run.Ending

/-!
# Runs that write all records or none

A plan that groups, orders or counts rows has a first stage that holds back every row that is
written, so that the sink gets nothing while the input is read.  When the stages are emptied,
only that first stage can fail, which happens before it has given back a row: the stages
behind it take any records, and so does a sink that never fails.  An error of such a run
therefore leaves the sink without a record, wherever it arises.
-/

namespace TableQuery

/-! ## Stages that hold rows back -/

namespace Stage

/-- Whether a stage holds a row back until all rows have come. -/
def holds (row : OutputRow) : Stage → Bool
  | groups _ _ =>
    match row with
    | .grouped _ => true
    | _ => false
  | sorted _ _ => true
  | counted _ => true
  | unique _ => false
  | top _ _ => false

variable [Hashing]

theorem Takes.of_holds {row : OutputRow} {stage stage' : Stage}
    {outcome : Except DataFault Flow} (h : stage.holds row)
    (htakes : stage.Takes row outcome stage') :
    (∀ flow, outcome = .ok flow → flow = .kept) ∧
      ∀ other, stage'.holds other = stage.holds other := by
  cases htakes with
  | conflict | misfit | refused => exact ⟨nofun, fun _ => rfl⟩
  | grouped | sorted | counted => exact ⟨fun _ hflow => (Except.ok.inj hflow).symm, fun _ => rfl⟩
  | @beside _ _ row hrow =>
    cases row with
    | grouped inGroup => exact absurd rfl (hrow inGroup)
    | plain | keyed => cases h
  | seen | unseen | closed | last | below => cases h

/-- A stage that holds a row back lets none pass, and goes on to hold back the same rows. -/
theorem accept_of_holds {row : OutputRow} {stage : Stage} (h : stage.holds row) :
    (∀ flow, (stage.accept row).1 = .ok flow → flow = .kept) ∧
      ∀ other, (stage.accept row).2.holds other = stage.holds other :=
  Takes.of_holds h (takes_accept stage row)

/-- Stages behind the first one are not reached by rows that it holds back. -/
theorem acceptAll_of_holds {row : OutputRow} {stage : Stage} (h : stage.holds row)
    (stages : List Stage) :
    (∀ flow, (acceptAll row (stage :: stages)).1 = .ok flow → flow = .kept) ∧
      ∃ stage', (acceptAll row (stage :: stages)).2 = stage' :: stages ∧
        ∀ other, stage'.holds other = stage.holds other := by
  obtain ⟨hkept, hholds⟩ := accept_of_holds h
  rw [acceptAll]
  rcases haccept : stage.accept row with ⟨fault | flow, stage'⟩
  · rw [haccept] at hholds
    refine ⟨?_, stage', rfl, hholds⟩
    intro flow hflow
    cases hflow
  · rw [haccept] at hkept hholds
    obtain rfl := hkept flow rfl
    exact ⟨fun flow hflow => (Except.ok.inj hflow).symm, stage', rfl, hholds⟩

end Stage

namespace Output

variable {σ : Type} [Hashing] [RecordSink σ]

theorem pass_of_holds {row : OutputRow} {stage : Stage} (h : stage.holds row)
    (stages : List Stage) (outlet : Outlet σ) :
    ∃ stage', (pass row (stage :: stages) outlet).2 = (stage' :: stages, outlet) ∧
      ∀ other, stage'.holds other = stage.holds other := by
  obtain ⟨hkept, stage', hstages, hholds⟩ := Stage.acceptAll_of_holds h stages
  refine ⟨stage', ?_, hholds⟩
  unfold pass
  rcases haccept : Stage.acceptAll row (stage :: stages) with ⟨fault | flow, stages'⟩
  · rw [haccept] at hstages
    exact Prod.ext hstages rfl
  · rw [haccept] at hkept hstages
    obtain rfl := hkept flow rfl
    exact Prod.ext hstages rfl

/-- Rows that the first stage holds back change nothing else. -/
theorem passAll_of_holds {rows : List OutputRow} {stage : Stage}
    (h : ∀ row ∈ rows, stage.holds row) (stages : List Stage) (outlet : Outlet σ) :
    ∃ stage', (passAll rows (stage :: stages) outlet).2 = (stage' :: stages, outlet) ∧
      ∀ other, stage'.holds other = stage.holds other := by
  induction rows generalizing stage with
  | nil => exact ⟨stage, rfl, fun _ => rfl⟩
  | cons row rows ih =>
    obtain ⟨hrow, hrows⟩ := List.forall_mem_cons.mp h
    obtain ⟨stage', hpass, hholds⟩ := pass_of_holds hrow stages outlet
    rcases hresult : pass row (stage :: stages) outlet with ⟨outcome, stages', outlet'⟩
    rw [hresult] at hpass
    obtain ⟨rfl, rfl⟩ := Prod.mk.inj hpass
    rw [passAll, hresult]
    rcases outcome with e | _ | _
    · exact ⟨stage', rfl, hholds⟩
    · have hothers : ∀ row ∈ rows, stage'.holds row := by
        intro other hother
        rw [hholds other]
        exact hrows other hother
      obtain ⟨stage'', hpassAll, hholds'⟩ := ih hothers
      exact ⟨stage'', hpassAll, fun other => (hholds' other).trans (hholds other)⟩
    · exact ⟨stage', rfl, hholds⟩

end Output

/-! ## Emptying stages that do not fail -/

namespace RecordSink

variable {σ : Type} [RecordSink σ]

/-- A sink that takes records or refuses them, and can be ended, without an error. -/
def Unfailing (sink : σ) : Prop :=
  ∀ sink', Reaches sink sink' →
    (∀ record, ∃ demand, (write record sink').1 = .ok demand) ∧ (finish sink').1 = .ok ()

theorem Unfailing.of_reaches {sink sink' : σ} (h : Unfailing sink) (hreaches : Reaches sink sink') :
    Unfailing sink' :=
  fun sink'' hreaches' => h sink'' (hreaches.trans hreaches')

end RecordSink

/-- Output in memory takes every record, also when it wants no more. -/
theorem MemorySink.unfailing (sink : MemorySink) : RecordSink.Unfailing sink := by
  intro sink' _
  exact ⟨fun record => ⟨_, rfl⟩, rfl⟩

namespace Outlet

variable {σ : Type} [RecordSink σ]

theorem exists_write_eq_ok {outlet : Outlet σ} (hsink : RecordSink.Unfailing outlet.sink)
    {row : OutputRow} {record : Record} (hrecord : row.record = .ok record) :
    ∃ demand, (outlet.write row).1 = .ok demand := by
  by_cases hfull : outlet.full
  · exact ⟨.stop, by rw [write_of_full hfull]⟩
  · obtain ⟨demand, hwrite⟩ := (hsink outlet.sink (.refl _)).1 record
    refine ⟨demand, ?_⟩
    rcases hresult : RecordSink.write record outlet.sink with ⟨answer, sink⟩
    rw [hresult] at hwrite
    obtain rfl : answer = .ok demand := hwrite
    simp [write, hfull, hrecord, hresult]

theorem exists_receive_eq_ok {outlet : Outlet σ} (hsink : RecordSink.Unfailing outlet.sink)
    {flow : Flow} (hflow : ∀ row ∈ flow.rows, ∃ record, row.record = .ok record) :
    ∃ demand, (outlet.receive flow).1 = .ok demand := by
  cases flow with
  | forward row =>
    obtain ⟨record, hrecord⟩ := hflow row List.mem_cons_self
    exact exists_write_eq_ok hsink hrecord
  | last row =>
    obtain ⟨record, hrecord⟩ := hflow row List.mem_cons_self
    obtain ⟨demand, hwrite⟩ := exists_write_eq_ok hsink hrecord
    exact ⟨.stop, by simp [receive, hwrite, Except.map]⟩
  | kept => exact ⟨.more, rfl⟩
  | closed => exact ⟨.stop, rfl⟩

end Outlet

namespace Stage

variable [Hashing]

/-- A stage that does not group takes any record, and what passes is a record. -/
theorem exists_accept_eq_ok {stage : Stage} (hflat : stage.isFlat) {row : OutputRow}
    {record : Record} (hrecord : row.record = .ok record) :
    ∃ flow stage', stage.accept row = (.ok flow, stage') ∧ stage'.isFlat ∧
      ∀ passed ∈ flow.rows, ∃ record, passed.record = .ok record := by
  have hrow : ∀ passed ∈ [row], ∃ record, passed.record = .ok record :=
    List.forall_mem_singleton.mpr ⟨record, hrecord⟩
  cases stage with
  | groups held conflict => cases hflat
  | sorted reverse latest =>
    exact ⟨.kept, sorted reverse ((row.key, record) :: latest), by simp [accept, hrecord], rfl,
      List.forall_mem_nil _⟩
  | counted seen =>
    exact ⟨.kept, counted (seen.alter record fun n => n.getD 0 + 1), by simp [accept, hrecord],
      rfl, List.forall_mem_nil _⟩
  | unique seen =>
    by_cases hseen : seen.contains record
    · exact ⟨.kept, unique seen, by simp [accept, hrecord, acceptUnique, hseen], rfl,
        List.forall_mem_nil _⟩
    · refine ⟨.forward (.plain record), unique (seen.alter record fun _ => ()),
        by simp [accept, hrecord, acceptUnique, hseen], rfl, ?_⟩
      exact List.forall_mem_singleton.mpr ⟨record, rfl⟩
  | top limit passed =>
    by_cases hclosed : limit ≤ passed
    · exact ⟨.closed, top limit passed, by simp [accept, acceptTop, hclosed], rfl,
        List.forall_mem_nil _⟩
    · by_cases hlast : passed + 1 = limit
      · exact ⟨.last row, top limit (passed + 1), by simp [accept, acceptTop, hclosed, hlast],
          rfl, hrow⟩
      · exact ⟨.forward row, top limit (passed + 1), by simp [accept, acceptTop, hclosed, hlast],
          rfl, hrow⟩

theorem exists_acceptAll_eq_ok {stages : List Stage} (hflat : ∀ stage ∈ stages, stage.isFlat)
    {row : OutputRow} {record : Record} (hrecord : row.record = .ok record) :
    ∃ flow stages', acceptAll row stages = (.ok flow, stages') ∧
      (∀ stage ∈ stages', stage.isFlat) ∧
      ∀ passed ∈ flow.rows, ∃ record, passed.record = .ok record := by
  induction stages generalizing row record with
  | nil =>
    refine ⟨.forward row, [], rfl, hflat, ?_⟩
    exact List.forall_mem_singleton.mpr ⟨record, hrecord⟩
  | cons stage stages ih =>
    obtain ⟨hstage, hstages⟩ := List.forall_mem_cons.mp hflat
    obtain ⟨flow, stage', haccept, hstage', hrows⟩ := exists_accept_eq_ok hstage hrecord
    cases flow with
    | forward next =>
      obtain ⟨record', hnext⟩ := hrows next List.mem_cons_self
      obtain ⟨flow, stages', hrest, hstages', hpassed⟩ := ih hstages hnext
      exact ⟨flow, stage' :: stages', by simp [acceptAll, haccept, hrest],
        List.forall_mem_cons.mpr ⟨hstage', hstages'⟩, hpassed⟩
    | last next =>
      obtain ⟨record', hnext⟩ := hrows next List.mem_cons_self
      obtain ⟨flow, stages', hrest, hstages', hpassed⟩ := ih hstages hnext
      exact ⟨flow.asLast, stage' :: stages', by simp [acceptAll, haccept, hrest, Except.map],
        List.forall_mem_cons.mpr ⟨hstage', hstages'⟩, by simpa using hpassed⟩
    | kept =>
      exact ⟨.kept, stage' :: stages, by simp [acceptAll, haccept],
        List.forall_mem_cons.mpr ⟨hstage', hstages⟩, List.forall_mem_nil _⟩
    | closed =>
      exact ⟨.closed, stage' :: stages, by simp [acceptAll, haccept],
        List.forall_mem_cons.mpr ⟨hstage', hstages⟩, List.forall_mem_nil _⟩

omit [Hashing] in
theorem exists_drain_eq_ok {stage : Stage} (hflat : stage.isFlat) :
    ∃ records, stage.drain.1 = .ok records := by
  cases stage with
  | groups held conflict => cases hflat
  | sorted | unique | counted | top => exact ⟨_, rfl⟩

end Stage

namespace Output

variable {σ : Type} [Hashing] [RecordSink σ]

theorem exists_pass_eq_ok {stages : List Stage} (hflat : ∀ stage ∈ stages, stage.isFlat)
    {outlet : Outlet σ} (hsink : RecordSink.Unfailing outlet.sink) (record : Record) :
    ∃ demand stages' outlet', pass (.plain record) stages outlet = (.ok demand, stages', outlet') ∧
      (∀ stage ∈ stages', stage.isFlat) ∧ RecordSink.Unfailing outlet'.sink := by
  have hrecord : (OutputRow.plain record).record = .ok record := rfl
  obtain ⟨flow, stages', haccept, hflat', hrows⟩ := Stage.exists_acceptAll_eq_ok hflat hrecord
  obtain ⟨demand, hdemand⟩ := Outlet.exists_receive_eq_ok hsink hrows
  have hreaches : RecordSink.Reaches outlet.sink (outlet.receive flow).2.sink :=
    Outlet.receive_keeps Outlet.reaches_write_of_reaches (.refl _) flow
  refine ⟨demand, stages', (outlet.receive flow).2, ?_, hflat', hsink.of_reaches hreaches⟩
  simp [pass, haccept, ← hdemand]

theorem exists_passAll_eq_ok {stages : List Stage} (hflat : ∀ stage ∈ stages, stage.isFlat)
    {outlet : Outlet σ} (hsink : RecordSink.Unfailing outlet.sink) (records : List Record) :
    ∃ demand stages' outlet',
      passAll (records.map OutputRow.plain) stages outlet = (.ok demand, stages', outlet') ∧
        (∀ stage ∈ stages', stage.isFlat) ∧ RecordSink.Unfailing outlet'.sink := by
  induction records generalizing stages outlet with
  | nil => exact ⟨.more, stages, outlet, rfl, hflat, hsink⟩
  | cons record records ih =>
    obtain ⟨demand, stages', outlet', hpass, hflat', hsink'⟩ :=
      exists_pass_eq_ok hflat hsink record
    rw [List.map_cons, passAll, hpass]
    cases demand with
    | more => exact ih hflat' hsink'
    | stop => exact ⟨.stop, stages', outlet', rfl, hflat', hsink'⟩

/-- Stages that do not group are emptied into a sink that does not fail without an error. -/
theorem drainAll_eq_ok {stages : List Stage} (hflat : ∀ stage ∈ stages, stage.isFlat)
    {outlet : Outlet σ} (hsink : RecordSink.Unfailing outlet.sink) :
    (drainAll stages outlet).1 = .ok () := by
  induction stages using Stage.chain_induction generalizing outlet with
  | nil => rw [drainAll]
  | cons stage stages ih =>
    obtain ⟨hstage, hstages⟩ := List.forall_mem_cons.mp hflat
    obtain ⟨records, hrecords⟩ := Stage.exists_drain_eq_ok hstage
    rcases hdrain : stage.drain with ⟨drained, stage'⟩
    rw [hdrain] at hrecords
    obtain rfl : drained = .ok records := hrecords
    obtain ⟨demand, stages', outlet', hpass, hflat', hsink'⟩ :=
      exists_passAll_eq_ok hstages hsink records
    have hlength := length_passAll (records.map OutputRow.plain) stages outlet
    rw [hpass] at hlength
    rw [drainAll_cons, hdrain]
    simp only [hpass]
    exact ih stages' hlength hflat' hsink'

/-- If only the first stage may fail, an error leaves the sink as it was. -/
theorem drainAll_of_error {stage : Stage} {stages : List Stage}
    (hflat : ∀ stage ∈ stages, stage.isFlat) {outlet : Outlet σ}
    (hsink : RecordSink.Unfailing outlet.sink) {e : RunError}
    (h : (drainAll (stage :: stages) outlet).1 = .error e) :
    (drainAll (stage :: stages) outlet).2.2 = outlet := by
  rw [drainAll_cons] at h ⊢
  rcases hdrain : stage.drain with ⟨fault | records, stage'⟩
  · rfl
  · obtain ⟨demand, stages', outlet', hpass, hflat', hsink'⟩ :=
      exists_passAll_eq_ok hflat hsink records
    rw [hdrain] at h
    simp only [hpass, drainAll_eq_ok hflat' hsink'] at h
    cases h

end Output

/-! ## Plans that hold back -/

namespace Plan

variable {plan : Plan} {index : Option JoinIndex}

/-- Whether no record is written before all rows have come. -/
def waits (plan : Plan) : Bool :=
  plan.isAggregate || plan.holdsBack

/-- The plan without its groups and aggregates. -/
def ungrouped (plan : Plan) : Plan :=
  { plan with groupBy := none, statement := .select [] }

/-- Behind the groups stand the stages of the plan without them. -/
theorem ofPlan_of_isAggregate (haggregate : plan.isAggregate) :
    ∃ conflict, Stage.ofPlan plan = .groups .empty conflict :: Stage.ofPlan plan.ungrouped := by
  simp only [Stage.ofPlan, haggregate, if_true]
  exact ⟨_, rfl⟩

theorem Writes.exists_eq_grouped [Hashing] (haggregate : plan.isAggregate)
    (hselect : plan.isUpdate = false) {number : Nat} {record : Record} {row : OutputRow}
    (h : plan.Writes index number record row) : ∃ grouped, row = .grouped grouped := by
  cases h with
  | selected hstatement _ _ hout hwritten =>
    obtain ⟨selected, -, hout⟩ := bind_eq_ok_iff.mp hout
    cases selected with
    | false =>
      cases hout
      cases hwritten
    | true =>
      rw [if_pos rfl, if_pos haggregate] at hout
      obtain ⟨grouped, -, hout⟩ := bind_eq_ok_iff.mp hout
      cases hout
      exact ⟨grouped, List.mem_singleton.mp hwritten⟩
  | kept hstatement | updated hstatement =>
    rw [isUpdate, hstatement] at hselect
    cases hselect

/-- The first stage of a plan that waits holds back all rows that are written, and is the only
one that may group. -/
theorem exists_ofPlan_eq_cons [Hashing] (hselect : plan.isAggregate → plan.isUpdate = false)
    (hwaits : plan.waits) (index : Option JoinIndex) :
    ∃ stage stages, Stage.ofPlan plan = stage :: stages ∧
      (∀ number record row, plan.Writes index number record row → stage.holds row) ∧
        ∀ other ∈ stages, other.isFlat := by
  by_cases haggregate : plan.isAggregate
  · obtain ⟨conflict, hstages⟩ := ofPlan_of_isAggregate haggregate
    refine ⟨_, _, hstages, ?_, Stage.isFlat_of_mem_ofPlan rfl⟩
    intro number record row hrow
    obtain ⟨grouped, rfl⟩ := hrow.exists_eq_grouped haggregate (hselect haggregate)
    rfl
  · have hplain : plan.isAggregate = false := by simpa using haggregate
    have hholds : plan.holdsBack := by simpa [waits, hplain] using hwaits
    have hflat := Stage.isFlat_of_mem_ofPlan hplain
    have htaken := Stage.hasTaken_ofPlan hplain
    rw [Stage.HasTaken, if_pos hholds] at htaken
    obtain ⟨reverse, latest, stages, hstages⟩ | ⟨seen, stages, hstages⟩ := htaken
    all_goals
      rw [hstages] at hflat ⊢
      exact ⟨_, stages, rfl, fun _ _ _ _ => rfl, (List.forall_mem_cons.mp hflat).2⟩

/-- A compiled plan that groups does not update. -/
theorem isUpdate_eq_false_of_isAggregate {query : List Char} {columns : ColumnMap}
    {joinColumns : Option ColumnMap} {scope : Scope}
    (hplan : ofQuery query columns joinColumns scope = .ok plan) (haggregate : plan.isAggregate) :
    plan.isUpdate = false := by
  by_contra hupdate
  have hupdate : plan.isUpdate = true := by simpa using hupdate
  obtain ⟨-, hgroup, -, -⟩ := plain_of_isUpdate hplan hupdate
  unfold isUpdate at hupdate
  unfold isAggregate at haggregate
  cases hstatement : plan.statement with
  | select items =>
    rw [hstatement] at hupdate
    cases hupdate
  | update assignments =>
    rw [hgroup, hstatement] at haggregate
    cases haggregate

variable {σ ρ τ : Type} [Hashing] [RecordSource σ] [RecordSource ρ] [RecordSink τ]

/-- While the input is read, only the stage that holds rows back changes. -/
theorem streamed_of_holds {stage : Stage} {stages : List Stage}
    (hstages : Stage.ofPlan plan = stage :: stages)
    (hholds : ∀ number record row, plan.Writes index number record row → stage.holds row)
    (input : σ) (sink : τ) :
    ∃ stage', (plan.streamed index input sink).state.output =
      .start (stage' :: stages) (plan.opened sink) := by
  suffices hkept : ∃ stage', (plan.streamed index input sink).state.output =
      .start (stage' :: stages) (plan.opened sink) ∧
        ∀ other, stage'.holds other = stage.holds other by
    obtain ⟨stage', houtput, -⟩ := hkept
    exact ⟨stage', houtput⟩
  refine streamed_keeps (K := fun output => ∃ stage',
    output = .start (stage' :: stages) (plan.opened sink) ∧
      ∀ other, stage'.holds other = stage.holds other) ?_ input
    ⟨stage, by rw [hstages], fun _ => rfl⟩
  rintro number record output rows hrows ⟨stage', rfl, hsame⟩
  have hrows' : ∀ row ∈ rows, stage'.holds row := by
    intro row hrow
    rw [hsame row]
    exact hholds number record row (hrows row hrow)
  obtain ⟨stage'', hpassed, hsame'⟩ :=
    Output.passAll_of_holds hrows' stages ⟨plan.opened sink, false, 0⟩
  refine ⟨stage'', ?_, fun other => (hsame' other).trans (hsame other)⟩
  simp only [Output.writeAll, Output.start, hpassed]

end Plan

namespace Traced

variable {σ : Type} [RecordSink σ]

theorem unfailing_of_sink {traced : Traced σ} (h : RecordSink.Unfailing traced.sink) :
    RecordSink.Unfailing traced := by
  rintro _ ⟨records, rfl⟩
  obtain ⟨hwrite, hfinish⟩ := h (RecordSink.writeAll traced.sink records) ⟨records, rfl⟩
  rw [← sink_writeAll] at hwrite hfinish
  exact ⟨hwrite, hfinish⟩

end Traced

namespace Plan

variable {σ ρ τ : Type} [RecordSource σ] [RecordSource ρ] [RecordSink τ]

omit [RecordSource ρ] in
/-- An error of a plan that waits, met while the input is read or when the stages are emptied,
leaves a sink that does not fail without a record. -/
theorem records_stream_of_error [Hashing] {plan : Plan}
    (hselect : plan.isAggregate → plan.isUpdate = false) (hwaits : plan.waits)
    {index : Option JoinIndex} {rest : Option ρ} {input : σ} {sink : τ}
    (hsink : RecordSink.Unfailing (plan.opened sink)) {e : RunError}
    (herror : (plan.stream index rest input (Traced.ofSink sink)).outcome = .error e) :
    (plan.stream index rest input (Traced.ofSink sink)).sink.records = [] := by
  obtain ⟨stage, stages, hstages, hholds, hflat⟩ := exists_ofPlan_eq_cons hselect hwaits index
  obtain ⟨stage', houtput⟩ := streamed_of_holds hstages hholds input (Traced.ofSink sink)
  cases houtcome : (plan.streamed index input (Traced.ofSink sink)).outcome with
  | error fault =>
    rw [stream_of_error houtcome, houtput, Traced.records_finish]
    exact Traced.records_opened plan sink
  | ok demand =>
    have hopened : RecordSink.Unfailing (plan.opened (Traced.ofSink sink)) := by
      apply Traced.unfailing_of_sink
      rwa [Traced.sink_opened]
    let outlet : Outlet (Traced τ) := ⟨plan.opened (Traced.ofSink sink), false, 0⟩
    obtain ⟨hended, stats, hstats⟩ := stream_of_ok houtcome rest
    rw [houtput] at hended hstats
    change _ = (RecordSink.finish (Output.drainAll (stage' :: stages) outlet).2.2.sink).2 at hended
    change _ = ((Output.drainAll (stage' :: stages) outlet).1.bind _).map _ at hstats
    cases hdrained : (Output.drainAll (stage' :: stages) outlet).1 with
    | error fault =>
      rw [hended, Output.drainAll_of_error hflat hopened hdrained, Traced.records_finish]
      exact Traced.records_opened plan sink
    | ok _ =>
      -- Everything has been written, and ending the sink cannot fail either.
      have hfinish := (hopened _ (Output.reaches_drainAll (stage' :: stages) outlet)).2
      rw [hdrained, herror] at hstats
      change _ = Except.map _ ((RecordSink.finish
        (Output.drainAll (stage' :: stages) outlet).2.2.sink).1.mapError _) at hstats
      rw [hfinish] at hstats
      cases hstats

/-- A run that groups, orders or counts rows and fails has not written a record to a sink
that does not fail. -/
theorem run_all_or_nothing [Hashing] {query : List Char} {columns : ColumnMap}
    {joinColumns : Option ColumnMap} {scope : Scope} {plan : Plan}
    (hplan : ofQuery query columns joinColumns scope = .ok plan) (hwaits : plan.waits)
    {input : σ} {join : Option ρ} {sink : τ} (hsink : RecordSink.Unfailing (plan.opened sink))
    {e : RunError}
    (herror : ((Execution.ofPlan plan).run input join (Traced.ofSink sink)).1.outcome =
      .error e) :
    ((Execution.ofPlan plan).run input join (Traced.ofSink sink)).1.sink.records = [] := by
  change (plan.run input join (Traced.ofSink sink)).outcome = .error e at herror
  change (plan.run input join (Traced.ofSink sink)).sink.records = []
  by_cases hjoins : ∃ index, plan.JoinsBy join index
  · obtain ⟨index, hindex⟩ := hjoins
    obtain ⟨rest, hrun⟩ := exists_run_eq_stream hindex input (Traced.ofSink sink)
    rw [hrun] at herror ⊢
    exact records_stream_of_error (isUpdate_eq_false_of_isAggregate hplan) hwaits hsink herror
  · rw [(run_of_not_joinsBy hjoins input (Traced.ofSink sink)).1]
    rfl

/-- A query that orders records by the length of a field. -/
theorem ofQuery_byLength :
    ofQuery "select a1 order by len(a1)".toList ⟨[("a1", 0)], none⟩ none Scope.empty =
      .ok ⟨.select [.value (.field .input 0 "a1")], none, none,
        some [.call .len [.field .input 0 "a1"]], false, none, .no, none, none, 0, none⟩ := by
  have hfound : ClauseKind.all.mapM (KeywordPlace.one? "select a1 order by len(a1)".toList) =
      .ok [none, some ⟨.select, .inner, 0, 6⟩, some ⟨.orderBy, .inner, 10, 18⟩, none, none, none,
        none, none] := rfl
  have hplaces := KeywordPlace.all_eq_ok hfound (.refl _) (by decide)
  rw [ofQuery_eq_of_places (by decide +kernel) (by decide +kernel) hplaces]
  decide +kernel

/-- A number in the second record has no length, and the first one has not been written. -/
theorem run_all_or_nothing_byLength :
    ∃ plan, ofQuery "select a1 order by len(a1)".toList ⟨[("a1", 0)], none⟩ none Scope.empty =
        .ok plan ∧ plan.waits ∧
      RecordSink.Unfailing (plan.opened (MemorySink.empty none)) ∧
      let result := ((Execution.ofPlan plan).run
        (MemoryTable.ofRecords none [[.text "x"], [.int 7]]) (none : Option MemoryTable)
        (Traced.ofSink (MemorySink.empty none))).1
      result.outcome =
        .error (.data (.evaluation 2 (.invalidArgument "len" (.noLength "int")))) ∧
      result.sink.records = [] := by
  refine ⟨_, ofQuery_byLength, rfl, MemorySink.unfailing _, by cbv, ?_⟩
  exact run_all_or_nothing ofQuery_byLength rfl (MemorySink.unfailing _) (by cbv)

/-- An aggregate in an operand does not make a query group. -/
theorem ofQuery_misplacedSum :
    ofQuery "select a1 or SUM(a1)".toList ⟨[("a1", 0)], none⟩ none Scope.empty =
      .ok ⟨.select [.value (.binary .or (.field .input 0 "a1")
          (.aggregate 0 .sum (.field .input 0 "a1") none))],
        none, none, none, false, none, .no, none, none, 1, none⟩ := by
  have hfound : ClauseKind.all.mapM (KeywordPlace.one? "select a1 or SUM(a1)".toList) =
      .ok [none, some ⟨.select, .inner, 0, 6⟩, none, none, none, none, none, none] := rfl
  have hplaces := KeywordPlace.all_eq_ok hfound (.refl _) (by decide)
  rw [ofQuery_eq_of_places (by decide +kernel) (by decide +kernel) hplaces]
  decide +kernel

/-- Its value is an error, before which records have been written that do not need it. -/
theorem run_all_or_nothing_misplacedSum :
    ∃ plan, ofQuery "select a1 or SUM(a1)".toList ⟨[("a1", 0)], none⟩ none Scope.empty =
        .ok plan ∧ plan.aggregates = 1 ∧
      RecordSink.Unfailing (plan.opened (MemorySink.empty none)) ∧
      let result := ((Execution.ofPlan plan).run
        (MemoryTable.ofRecords none [[.int 1], [.int 0]]) (none : Option MemoryTable)
        (Traced.ofSink (MemorySink.empty none))).1
      result.outcome = .error (.data (.evaluation 2 (.misplacedAggregate "SUM"))) ∧
      result.sink.records = [[.int 1]] :=
  ⟨_, ofQuery_misplacedSum, rfl, MemorySink.unfailing _, by cbv, by cbv⟩

end Plan
end TableQuery
