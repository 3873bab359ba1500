import TableQuery.Proofs.Query.Equality
import TableQuery.Proofs.Run.OutputWidth
import TableQuery.Proofs.Run.Partners
import TableQuery.Proofs.Run.Phases

/-!
# Records that fit the header

The header of the output is made when the query is read, and the records are made when it is
run.  They go together: where the records of the tables have a field for each column, so have
those of the output, whatever the select list asks for and whatever the stages do.  Only a
join table without records does not show how many fields its absent records should have.
-/

namespace TableQuery
namespace Plan

/-! ## Runs -/

variable {σ ρ τ : Type} [RecordSource σ] [RecordSource ρ] [RecordSink τ] {plan : Plan}
  {items : List Projection} {index : Option JoinIndex} {sink : τ} {n m w : Nat}

omit [RecordSource σ] [RecordSource ρ] in
theorem carries_selectRows [Hashing] {rows : List Row}
    (hrows : ∀ row ∈ rows,
      selectWidth plan.exclusion items row.fields.length row.partnerFields.length = n)
    {progress : Progress τ} (h : progress.output.Carries sink n m) :
    (plan.selectRows items rows progress).2.output.Carries sink n m := by
  induction rows generalizing progress with
  | nil => exact h
  | cons row rows ih =>
    obtain ⟨hrow, hothers⟩ := List.forall_mem_cons.mp hrows
    unfold selectRows
    split
    · exact h
    · next output heq =>
      have hwide := isWide_rowsOf heq
      rw [hrow] at hwide
      have hwritten := h.writeAll hwide
      split
      · next progress' hresult =>
        have houtput : progress'.output = (progress.output.writeAll output).2 :=
          (congrArg (fun result => result.2.output) hresult).symm
        exact ih hothers (houtput ▸ hwritten)
      · exact hwritten

omit [RecordSource σ] [RecordSource ρ] in
/-- One input record keeps the number of fields of all records that are written. -/
theorem carries_takeRecord [Hashing] (hstatement : plan.statement = .select items)
    (hpartners : PartnersHave index w) {record : Record}
    (hrecord : selectWidth plan.exclusion items record.length w = n) (number : Nat)
    {progress : Progress τ} (h : progress.output.Carries sink n m) :
    (plan.takeRecord index number record progress).2.output.Carries sink n m := by
  simp only [takeRecord, hstatement]
  split
  · exact h
  · next rows hrows =>
    refine carries_selectRows (fun row hrow => ?_) h
    obtain ⟨hfields, hpartner⟩ := hpartners record number rows hrows row hrow
    rw [hfields, hpartner, hrecord]

omit [RecordSource ρ] in
/-- The sink of a run has been given records with the same number of fields, and has then
been ended. -/
theorem delivers_stream [Hashing] (hstatement : plan.statement = .select items)
    (hpartners : PartnersHave index w) {input : σ}
    (hinput : ∀ record ∈ RecordSource.pulled input,
      selectWidth plan.exclusion items record.length w = n) (sink : τ) (rest : Option ρ) :
    ∃ records, (∀ record ∈ records,
        record.length = n + if plan.distinct = .counted then 1 else 0) ∧
      (plan.stream index rest input sink).sink =
        (RecordSink.finish (RecordSink.writeAll (plan.opened sink) records)).2 := by
  have hstart : (Progress.start (Stage.ofPlan plan) (plan.opened sink)).output.Carries
      (plan.opened sink) n (n + if plan.distinct = .counted then 1 else 0) :=
    ⟨Stage.carryAll_ofPlan plan n, ⟨[], nofun, rfl⟩, rfl⟩
  have hstreamed : (plan.streamed index input sink).state.output.Carries
      (plan.opened sink) n (n + if plan.distinct = .counted then 1 else 0) := by
    refine feed_keeps (P := fun progress : Progress τ => progress.output.Carries
      (plan.opened sink) n _) ?_ hstart 1
    intro record hrecord number _
    exact carries_takeRecord hstatement hpartners (hinput record hrecord) number
  cases houtcome : (plan.streamed index input sink).outcome with
  | error e =>
    obtain ⟨records, hrecords, hsink⟩ := hstreamed.abandon
    refine ⟨records, hrecords, ?_⟩
    rw [← hsink, stream_eq]
    simp only [houtcome]
  | ok demand =>
    obtain ⟨records, hrecords, hsink⟩ := hstreamed.finish
    obtain ⟨left, hfinish⟩ := exists_stream_eq_finishRun houtcome rfl rest
    refine ⟨records, hrecords, ?_⟩
    rw [← hsink, hfinish]
    rfl

/-! ## The header -/

/-- Whether a plan joins a table without records so that all input records are joined with
absent values, of which there are none. -/
def lacksPartners (plan : Plan) (join : Option ρ) : Bool :=
  plan.join.any (fun spec => spec.kind = .left) &&
    join.all fun table => (RecordSource.pulled table).isEmpty

/-- The number of fields that are then missing from a record, for all stars of its select
list that stand for the join record. -/
def missingFields (plan : Plan) (items : List Projection) (join : Option ρ)
    (joinNames : List String) : Nat :=
  if plan.lacksPartners join then items.countP Projection.addsPartner * joinNames.length else 0

theorem fits_columnsFor {inputColumns : ColumnMap} {joinColumns : Option ColumnMap}
    {spec : JoinSpec} (hspec : plan.join = some spec) {joinNames : List String}
    (hnames : joinColumns.bind ColumnMap.header = some joinNames) {fields : Nat}
    (hfields : ∀ names, inputColumns.header = some names → fields = names.length) :
    Fits (plan.columnsFor inputColumns joinColumns) fields joinNames.length := by
  have hcolumns : (plan.columnsFor inputColumns joinColumns).join = joinColumns := by
    simp [columnsFor, hspec]
  refine ⟨hfields, fun names hjoin => ?_, fun hnone => ?_⟩
  · rw [hcolumns, hnames] at hjoin
    rw [Option.some.inj hjoin]
  · rw [← hcolumns, hnone] at hnames
    cases hnames

/-- Partners are as wide as the join table has columns, or fields are missing. -/
theorem exists_partnersHave [Hashing] {spec : JoinSpec} (hspec : plan.join = some spec)
    {table : ρ} {demand : Demand} (hbuilt : (JoinIndex.build spec table).outcome = .ok demand)
    {joinNames : List String}
    (hwide : ∀ record ∈ RecordSource.pulled table, record.length = joinNames.length) :
    ∃ w, PartnersHave (some (JoinIndex.build spec table).state) w ∧ ∀ fields,
      selectWidth plan.exclusion items fields w +
          plan.missingFields items (some table) joinNames =
        selectWidth plan.exclusion items fields joinNames.length := by
  have hindexes := JoinIndex.indexes_of_build hbuilt
  cases hlacks : plan.lacksPartners (some table) with
  | true =>
    obtain ⟨-, hall⟩ := Bool.and_eq_true_iff.mp hlacks
    have hempty : RecordSource.pulled table = [] := List.isEmpty_iff.mp hall
    rw [hempty] at hindexes
    -- The widest of no records has no fields.
    refine ⟨0, partnersHave_some hindexes nofun fun _ => rfl, fun fields => ?_⟩
    rw [missingFields, if_pos hlacks, selectWidth_eq plan.exclusion items fields joinNames.length]
  | false =>
    refine ⟨joinNames.length, partnersHave_some hindexes hwide fun hkind => ?_, fun fields => ?_⟩
    · refine JoinIndex.widest_eq (fun hempty => ?_) hwide
      simp [lacksPartners, hspec, hkind, hempty] at hlacks
    · rw [missingFields, hlacks]
      rfl

theorem selectWidth_congr {exclusion : Option (List Nat)} {fields fields' partnerFields : Nat}
    (h : selectWidth exclusion items fields partnerFields =
      selectWidth exclusion items fields' partnerFields) (w : Nat) :
    selectWidth exclusion items fields w = selectWidth exclusion items fields' w := by
  rw [selectWidth_eq exclusion items fields partnerFields,
    selectWidth_eq exclusion items fields' partnerFields] at h
  rw [selectWidth_eq exclusion items fields w, selectWidth_eq exclusion items fields' w,
    Nat.add_right_cancel h]

section

variable [Hashing] {query : List Char} {inputColumns : ColumnMap} {joinColumns : Option ColumnMap}
  {scope : Scope} (hplan : ofQuery query inputColumns joinColumns scope = .ok plan)
  (hstatement : plan.statement = .select items) {header : List String}
  (hheader : plan.header = some header) (hcounted : plan.countsUnnamed = false) {input : σ}
  (hinput : ∀ names, inputColumns.header = some names →
    ∀ record ∈ RecordSource.pulled input, record.length = names.length)

include hplan hstatement hheader hcounted hinput

omit [RecordSource ρ] in
/-- Records are short of the header by as many fields as their partners are. -/
theorem delivers_of_fits (hpartners : PartnersHave index w) {partnerFields missing : Nat}
    (hfits : ∀ fields, (∀ names, inputColumns.header = some names → fields = names.length) →
      Fits (plan.columnsFor inputColumns joinColumns) fields partnerFields)
    (hmissing : ∀ fields, selectWidth plan.exclusion items fields w + missing =
      selectWidth plan.exclusion items fields partnerFields) (rest : Option ρ) :
    ∃ records, (∀ record ∈ records, record.length + missing = header.length) ∧
      (plan.stream index rest input sink).sink =
        (RecordSink.finish (RecordSink.writeAll (plan.opened sink) records)).2 := by
  have hlength : ∀ fields,
      (∀ names, inputColumns.header = some names → fields = names.length) →
        header.length = plan.outputWidth items fields partnerFields :=
    fun fields hfields => length_header hplan hstatement hheader hcounted (hfits fields hfields)
  have hcolumns : ∀ names, inputColumns.header = some names →
      (inputColumns.header.getD []).length = names.length := by
    intro names hnames
    rw [hnames, Option.getD_some]
  -- The header has one length, so all records that go with the columns come to the same width.
  have hsame : ∀ record ∈ RecordSource.pulled input,
      selectWidth plan.exclusion items record.length w =
        selectWidth plan.exclusion items (inputColumns.header.getD []).length w := by
    intro record hrecord
    have hwidths := (hlength record.length fun names hnames =>
      hinput names hnames record hrecord).symm.trans (hlength _ hcolumns)
    exact selectWidth_congr (Nat.add_right_cancel hwidths) w
  obtain ⟨records, hrecords, hsink⟩ := delivers_stream hstatement hpartners hsame sink rest
  refine ⟨records, fun record hrecord => ?_, hsink⟩
  rw [hrecords record hrecord, hlength _ hcolumns, outputWidth, ← hmissing]
  omega

/-- Where the records of the tables have a field for each column, all records that a plan for
a select list delivers have a field for each name of the output header, except for the
fields that a join table without records does not show.  A run that fails before the first
input record leaves the sink as it is. -/
theorem run_delivers_header {join : Option ρ} {joinNames : List String}
    (hjoin : plan.join.isSome → joinColumns.bind ColumnMap.header = some joinNames ∧
      ∀ table ∈ join, ∀ record ∈ RecordSource.pulled table, record.length = joinNames.length)
    (sink : τ) :
    (plan.run input join sink).sink = sink ∨
      ∃ records, (∀ record ∈ records,
          record.length + plan.missingFields items join joinNames = header.length) ∧
        (plan.run input join sink).sink =
          (RecordSink.finish (RecordSink.writeAll (plan.opened sink) records)).2 := by
  cases hspec : plan.join with
  | none =>
    have hjoins : plan.JoinsBy join none := hspec
    obtain ⟨rest, hrun⟩ := exists_run_eq_stream hjoins input sink
    have hmissing : plan.missingFields items join joinNames = 0 := by
      simp [missingFields, lacksPartners, hspec]
    rw [hrun, hmissing]
    have hfits : ∀ fields, (∀ names, inputColumns.header = some names → fields = names.length) →
        Fits (plan.columnsFor inputColumns joinColumns) fields 0 := by
      intro fields hfields
      refine ⟨hfields, ?_, fun _ => rfl⟩
      simp [columnsFor, hspec]
    exact .inr (delivers_of_fits hplan hstatement hheader hcounted hinput partnersHave_none hfits
      (fun _ => rfl) rest)
  | some spec =>
    obtain ⟨hnames, hwide⟩ := hjoin (by rw [hspec]; rfl)
    cases join with
    | none =>
      left
      simp [run, hspec]
    | some table =>
      cases hbuilt : (JoinIndex.build spec table).outcome with
      | error e =>
        left
        simp [run, hspec, hbuilt]
      | ok demand =>
        have hjoins : plan.JoinsBy (some table) (some (JoinIndex.build spec table).state) :=
          ⟨spec, table, demand, hspec, rfl, hbuilt, rfl⟩
        obtain ⟨rest, hrun⟩ := exists_run_eq_stream hjoins input sink
        obtain ⟨w, hpartners, hmissing⟩ := exists_partnersHave hspec hbuilt (hwide table rfl)
        rw [hrun]
        exact .inr (delivers_of_fits hplan hstatement hheader hcounted hinput hpartners
          (fun fields hfields => fits_columnsFor hspec hnames hfields) hmissing rest)

end

theorem locate_leftJoin :
    Clauses.locate "select distinct count a1, * left join b on a1 == b1".toList =
      .ok ⟨some ⟨"a1, *".toList, none, .counted⟩, none, none, none, none,
        some ⟨.left, "b on a1 == b1".toList⟩, none, none⟩ := by
  have hfound : ClauseKind.all.mapM
      (KeywordPlace.one? "select distinct count a1, * left join b on a1 == b1".toList) =
        .ok [some ⟨.join, .left, 28, 37⟩, some ⟨.select, .inner, 0, 6⟩, none, none, none, none,
          none, none] := rfl
  have hall : KeywordPlace.all "select distinct count a1, * left join b on a1 == b1".toList =
      .ok [⟨.select, .inner, 0, 6⟩, ⟨.join, .left, 28, 37⟩] :=
    KeywordPlace.all_eq_ok hfound (List.Perm.swap _ _ _) (by decide)
  rw [Clauses.locate, hall]
  decide +kernel

/-- A query that joins a second table and counts equal rows. -/
theorem ofQuery_leftJoin :
    ofQuery "select distinct count a1, * left join b on a1 == b1".toList
        ⟨[("a1", 0)], some ["x"]⟩ (some ⟨[("b1", 0)], some ["y"]⟩) Scope.empty =
      .ok ⟨.select [.value (.field .input 0 "a1"), .star .all], none,
        some ⟨"b", .left, [⟨.field .input 0 "a1", .field .join 0 "b1"⟩]⟩, none, false, none,
        .counted, none, none, 0, some ["count", "x", "x", "y"]⟩ := by
  have hisolated : IsolatedQuery.ofQuery
      "select distinct count a1, * left join b on a1 == b1".toList =
        .ok ⟨"select distinct count a1, * left join b on a1 == b1".toList, []⟩ := by
    decide +kernel
  rw [ofQuery_eq_of_clauses hisolated (by decide +kernel) locate_leftJoin]
  decide +kernel

theorem locate_countedExclusion :
    Clauses.locate "select distinct count * except a2".toList =
      .ok ⟨some ⟨['*'], none, .counted⟩, none, none, none, none, none, none,
        some "a2".toList⟩ := by
  have hfound : ClauseKind.all.mapM
      (KeywordPlace.one? "select distinct count * except a2".toList) =
        .ok [none, some ⟨.select, .inner, 0, 6⟩, none, none, none, none, none,
          some ⟨.exclusion, .inner, 24, 30⟩] := rfl
  have hall : KeywordPlace.all "select distinct count * except a2".toList =
      .ok [⟨.select, .inner, 0, 6⟩, ⟨.exclusion, .inner, 24, 30⟩] :=
    KeywordPlace.all_eq_ok hfound (List.Perm.refl _) (by decide)
  rw [Clauses.locate, hall]
  decide +kernel

/-- A query that leaves out a column and counts equal rows. -/
theorem ofQuery_countedExclusion :
    ofQuery "select distinct count * except a2".toList ⟨[("a2", 1)], some ["x", "y"]⟩ none
        Scope.empty =
      .ok ⟨.select [.star .input], none, none, none, false, none, .counted, none, some [1], 0,
        some ["x"]⟩ := by
  have hisolated : IsolatedQuery.ofQuery "select distinct count * except a2".toList =
      .ok ⟨"select distinct count * except a2".toList, []⟩ := by
    decide +kernel
  rw [ofQuery_eq_of_clauses hisolated (by decide +kernel) locate_countedExclusion]
  decide +kernel

/-- An item, a star for two tables and the counts: four names, and two records of four
fields, the second one with an absent value in place of the field of a partner. -/
theorem run_delivers_header_leftJoin :
    ∃ plan items header,
      ofQuery "select distinct count a1, * left join b on a1 == b1".toList
        ⟨[("a1", 0)], some ["x"]⟩ (some ⟨[("b1", 0)], some ["y"]⟩) Scope.empty = .ok plan ∧
      plan.statement = .select items ∧ plan.header = some header ∧ header.length = 4 ∧
      plan.countsUnnamed = false ∧
      let table := MemoryTable.ofRecords (some ["y"]) [[.int 7]]
      let records := (plan.run (MemoryTable.ofRecords (some ["x"]) [[.int 7], [.int 8]])
        (some table) (MemorySink.empty none)).sink.records
      records = [[.int 1, .int 7, .int 7, .int 7], [.int 1, .int 8, .int 8, .null]] ∧
        ∀ record ∈ records,
          record.length + plan.missingFields items (some table) ["y"] = header.length := by
  obtain hsink | ⟨records, hrecords, hsink⟩ := @run_delivers_header
    MemoryTable MemoryTable MemorySink _ _ _ _ _ _ _ _ _ _ ofQuery_leftJoin rfl _ rfl rfl
    (MemoryTable.ofRecords (some ["x"]) [[.int 7], [.int 8]])
    (by
      rintro names ⟨⟩
      rw [MemoryTable.pulled_ofRecords]
      decide)
    (some (MemoryTable.ofRecords (some ["y"]) [[.int 7]])) _
    (fun _ => ⟨rfl, by
      rintro table ⟨⟩
      rw [MemoryTable.pulled_ofRecords]
      decide⟩)
    (MemorySink.empty none)
  · refine ⟨_, _, _, ofQuery_leftJoin, rfl, rfl, rfl, rfl, by decide +kernel, ?_⟩
    rw [hsink]
    simp [MemorySink.records, MemorySink.empty]
  · refine ⟨_, _, _, ofQuery_leftJoin, rfl, rfl, rfl, rfl, by decide +kernel, ?_⟩
    rw [hsink, MemorySink.records_finish_writeAll]
    exact hrecords

/-- Without records of the join table an input record lacks the field of its partner, and
counts of rows with a column left out have no name. -/
theorem run_delivers_header_fails :
    (∃ plan header,
      ofQuery "select distinct count a1, * left join b on a1 == b1".toList
        ⟨[("a1", 0)], some ["x"]⟩ (some ⟨[("b1", 0)], some ["y"]⟩) Scope.empty = .ok plan ∧
      plan.header = some header ∧ header.length = 4 ∧
      (plan.run (MemoryTable.ofRecords (some ["x"]) [[.int 7]])
        (some (MemoryTable.ofRecords (some ["y"]) [])) (MemorySink.empty none)).sink.records =
          [[.int 1, .int 7, .int 7]]) ∧
    ∃ plan header,
      ofQuery "select distinct count * except a2".toList ⟨[("a2", 1)], some ["x", "y"]⟩ none
        Scope.empty = .ok plan ∧
      plan.header = some header ∧ header.length = 1 ∧
      (plan.run (MemoryTable.ofRecords (some ["x", "y"]) [[.int 7, .int 8]])
        (none : Option MemoryTable) (MemorySink.empty none)).sink.records =
          [[.int 1, .int 7]] :=
  ⟨⟨_, _, ofQuery_leftJoin, rfl, rfl, by decide +kernel⟩,
    ⟨_, _, ofQuery_countedExclusion, rfl, rfl, by decide +kernel⟩⟩

end Plan
end TableQuery
