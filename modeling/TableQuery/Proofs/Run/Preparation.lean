import TableQuery.Proofs.Run.Ending
import TableQuery.Run.Query

/-!
# What comes before a run

Before a query is run, its definitions are read, its join table is opened and it is
understood.  No more than the headers of the tables is looked at, so that an error of the
definitions or of the query arises before a record has been pulled and before the sink has
been asked for anything.  The run itself only fails with errors of the data and of the tables,
and when its join table cannot be read to the end, it has not turned to the input yet.
-/

namespace TableQuery

/-! ## Metered sources -/

/-- A source with the number of times that it has been asked for a record. -/
structure Metered (σ : Type) where
  source : σ
  pulls : Nat

namespace Metered

variable {σ : Type} [RecordSource σ]

/-- A source that has not been asked for a record. -/
def ofSource (source : σ) : Metered σ :=
  ⟨source, 0⟩

/-- The answer of the source, which counts as one pull whatever it is. -/
def next (metered : Metered σ) : Except TableError (Option Record) × Metered σ :=
  let (answer, source) := RecordSource.next metered.source
  (answer, ⟨source, metered.pulls + 1⟩)

theorem remaining_lt_of_next {metered metered' : Metered σ} {record : Record}
    (h : metered.next = (.ok (some record), metered')) :
    RecordSource.remaining metered'.source < RecordSource.remaining metered.source := by
  obtain ⟨hanswer, hrest⟩ := Prod.mk.inj h
  have hnext : RecordSource.next metered.source = (.ok (some record), metered'.source) :=
    Prod.ext hanswer (congrArg source hrest)
  exact RecordSource.remaining_lt hnext

instance : RecordSource (Metered σ) where
  header metered := RecordSource.header metered.source
  next := next
  close metered := { metered with source := RecordSource.close metered.source }
  warnings metered := RecordSource.warnings metered.source
  remaining metered := RecordSource.remaining metered.source
  remaining_lt := remaining_lt_of_next

end Metered

namespace Catalog

variable {ρ δ : Type}

/-- The catalog in which something else stands for each table. -/
def map (f : ρ → δ) (catalog : Catalog ρ) : Catalog δ :=
  fun name => (catalog name).map f

/-- The headers of the tables. -/
def headers [RecordSource ρ] (catalog : Catalog ρ) : Catalog (Option (List String)) :=
  catalog.map RecordSource.header

/-- The same tables, metered from when they are opened. -/
def metered [RecordSource ρ] (catalog : Catalog ρ) : Catalog (Metered ρ) :=
  catalog.map Metered.ofSource

theorem headers_metered [RecordSource ρ] (catalog : Catalog ρ) :
    catalog.metered.headers = catalog.headers := by
  funext name
  unfold headers metered map
  cases catalog name with
  | error e => rfl
  | ok table => rfl

end Catalog

/-! ## Preparing a query -/

/-- What has been opened, with something else in place of the join table. -/
def OpenedQuery.map {ρ δ : Type} (f : ρ → δ) (opened : OpenedQuery ρ) : OpenedQuery δ :=
  ⟨opened.scope, opened.join.map (Prod.map id f)⟩

section Opening

variable {ρ δ : Type} {settings : QuerySettings} {query : List Char} {catalog : Catalog ρ}

theorem Catalog.openNamed_map (f : ρ → δ) (catalog : Catalog ρ) (name? : Option String) :
    (catalog.map f).openNamed name? =
      (catalog.openNamed name?).map (Option.map (Prod.map id f)) := by
  cases name? with
  | none => rfl
  | some name =>
    simp only [openNamed, map]
    cases catalog name with
    | error e => rfl
    | ok table => rfl

/-- Opening a query looks at nothing that the tables of the catalog hold. -/
theorem openQuery_map (f : ρ → δ) (settings : QuerySettings) (query : List Char)
    (catalog : Catalog ρ) :
    openQuery settings query (catalog.map f) =
      (openQuery settings query catalog).map (OpenedQuery.map f) := by
  unfold openQuery
  cases settings.scope with
  | error e => rfl
  | ok scope =>
    cases (Plan.joinTable? query).mapError QueryError.query with
    | error e => rfl
    | ok name? =>
      simp only [ok_bind, Catalog.openNamed_map]
      cases catalog.openNamed name? with
      | error e => rfl
      | ok join => rfl

theorem Catalog.eq_ok_of_openNamed {name? : Option String} {name : String} {table : ρ}
    (h : catalog.openNamed name? = .ok (some (name, table))) : catalog name = .ok table := by
  cases name? with
  | none => cases h
  | some name =>
    obtain ⟨table, htable, h⟩ := map_eq_ok_iff.mp h
    cases h
    exact eq_ok_of_mapError htable

/-- The join table of a query is the one that the catalog has. -/
theorem eq_ok_of_openQuery {opened : OpenedQuery ρ} {name : String} {table : ρ}
    (h : openQuery settings query catalog = .ok opened)
    (hjoin : opened.join = some (name, table)) : catalog name = .ok table := by
  obtain ⟨scope, -, h⟩ := bind_eq_ok_iff.mp h
  obtain ⟨name?, -, h⟩ := bind_eq_ok_iff.mp h
  obtain ⟨join, hopen, h⟩ := bind_eq_ok_iff.mp h
  cases h
  exact Catalog.eq_ok_of_openNamed (hopen.trans (congrArg Except.ok hjoin))

end Opening

/-- The plan for a query over tables of which only the headers are known. -/
def prepareQuery (settings : QuerySettings) (query : List Char) (input : Option (List String))
    (headers : Catalog (Option (List String))) : Except QueryError Plan := do
  let opened ← openQuery settings query headers
  planQuery query opened.scope input (opened.join.map Prod.snd)

section Running

variable {σ ρ τ : Type} [RecordSource σ] [RecordSource ρ] [RecordSink τ]
  {settings : QuerySettings} {query : List Char} {input : σ} {catalog : Catalog ρ} {sink : τ}

/-- A query is prepared by opening it and by understanding what has been opened. -/
theorem prepareQuery_headers :
    prepareQuery settings query (RecordSource.header input) catalog.headers =
      (openQuery settings query catalog).bind fun opened =>
        planQuery query opened.scope (RecordSource.header input)
          ((opened.join.map Prod.snd).map RecordSource.header) := by
  rw [prepareQuery, Catalog.headers, openQuery_map]
  cases openQuery settings query catalog with
  | error e => rfl
  | ok opened =>
    have hheader : ((opened.map RecordSource.header).join.map Prod.snd) =
        (opened.join.map Prod.snd).map RecordSource.header := by
      simp only [OpenedQuery.map, Option.map_map]
      rfl
    exact congrArg (planQuery query opened.scope (RecordSource.header input)) hheader

variable [Hashing]

/-- A query that cannot be prepared leaves its tables and the sink as they are. -/
theorem exists_runQuery_eq_of_error {e : QueryError}
    (h : prepareQuery settings query (RecordSource.header input) catalog.headers = .error e)
    (sink : τ) :
    ∃ join : Option ρ, (∀ table ∈ join, ∃ name, catalog name = .ok table) ∧
      runQuery settings query input catalog sink = ⟨.error e, input, join, sink⟩ := by
  rw [prepareQuery_headers] at h
  unfold runQuery
  cases hopened : openQuery settings query catalog with
  | error e' =>
    rw [hopened] at h
    cases h
    exact ⟨none, nofun, rfl⟩
  | ok opened =>
    rw [hopened] at h
    refine ⟨opened.join.map Prod.snd, ?_, ?_⟩
    · intro table htable
      obtain ⟨⟨name, table⟩, hjoin, rfl⟩ := Option.map_eq_some_iff.mp htable
      exact ⟨name, eq_ok_of_openQuery hopened hjoin⟩
    · have hplan : planQuery query opened.scope (RecordSource.header input)
          ((opened.join.map Prod.snd).map RecordSource.header) = .error e := h
      simp only [hplan]

/-- A query that has been prepared is run. -/
theorem exists_runQuery_eq_of_ok {plan : Plan}
    (h : prepareQuery settings query (RecordSource.header input) catalog.headers = .ok plan)
    (sink : τ) :
    ∃ join : Option (String × ρ),
      runQuery settings query input catalog sink = runPlan settings plan input join sink := by
  rw [prepareQuery_headers] at h
  obtain ⟨opened, hopened, hplan⟩ := bind_eq_ok_iff.mp h
  refine ⟨opened.join, ?_⟩
  simp only [runQuery, hopened, hplan]

end Running

/-! ## The phases of errors -/

/-- The errors in what has been typed, as opposed to those of the data and of the tables. -/
def QueryError.IsTextual (e : QueryError) : Prop :=
  e.kind = .definitions ∨ e.kind = .query

theorem QueryError.not_isTextual_run (e : RunError) : ¬(run e).IsTextual := by
  cases e with
  | data fault => simp [IsTextual, kind]
  | table e => simp [IsTextual, kind]

theorem not_isTextual_of_mapError_run {α : Type} {outcome : Except RunError α} {e : QueryError}
    (h : outcome.mapError QueryError.run = .error e) : ¬e.IsTextual := by
  cases outcome with
  | error e' =>
    cases h
    exact QueryError.not_isTextual_run e'
  | ok a => cases h

section Phases

variable {σ ρ τ : Type} [RecordSource σ] [RecordSource ρ] [RecordSink τ]
  {settings : QuerySettings} {query : List Char} {input : σ} {catalog : Catalog ρ} {sink : τ}

/-- An error in what has been typed is one of the preparation. -/
theorem prepareQuery_of_isTextual [Hashing] {e : QueryError} (he : e.IsTextual)
    (h : (runQuery settings query input catalog sink).outcome = .error e) :
    prepareQuery settings query (RecordSource.header input) catalog.headers = .error e := by
  cases hprepared : prepareQuery settings query (RecordSource.header input) catalog.headers with
  | error e' =>
    obtain ⟨join, -, hrun⟩ := exists_runQuery_eq_of_error hprepared sink
    rw [hrun] at h
    exact congrArg Except.error (Except.error.inj h)
  | ok plan =>
    obtain ⟨join, hrun⟩ := exists_runQuery_eq_of_ok hprepared sink
    rw [hrun] at h
    exact absurd he (not_isTextual_of_mapError_run h)

/-- The preparation of a query over metered tables is the same. -/
theorem prepareQuery_metered (settings : QuerySettings) (query : List Char) (input : σ)
    (catalog : Catalog ρ) :
    prepareQuery settings query (RecordSource.header (Metered.ofSource input))
        catalog.metered.headers =
      prepareQuery settings query (RecordSource.header input) catalog.headers := by
  rw [Catalog.headers_metered]
  rfl

theorem Catalog.pulls_of_metered {name : String} {table : Metered ρ}
    (h : catalog.metered name = .ok table) : table.pulls = 0 := by
  obtain ⟨source, -, rfl⟩ := map_eq_ok_iff.mp h
  rfl

namespace Plan

variable [Hashing]

/-- A run whose join table cannot be read to the end has not turned to the input. -/
theorem run_of_build_error {plan : Plan} {spec : JoinSpec} {table : ρ} {e : RunError}
    (hjoin : plan.join = some spec) (hbuild : (JoinIndex.build spec table).outcome = .error e)
    (input : σ) (sink : τ) :
    plan.run input (some table) sink =
      ⟨.error e, input, some (JoinIndex.build spec table).source, sink⟩ := by
  simp only [run, hjoin, hbuild]

end Plan

/-- Every error belongs to a phase.  An error in what has been typed comes before the first
record is pulled from any table and before the sink is asked for anything; an error of the
join index comes before the first input record; and a run has no errors in what has been
typed.  The last part holds by the type of its errors alone: a run ends in a `RunError`, and
no error of this type is one in what has been typed. -/
theorem runQuery_error_phases [Hashing] (settings : QuerySettings) (query : List Char) (input : σ)
    (catalog : Catalog ρ) (sink : τ) :
    (∀ e, (runQuery settings query input catalog sink).outcome = .error e → e.IsTextual →
      let result := runQuery settings query (Metered.ofSource input) catalog.metered
        (Traced.ofSink sink)
      result.outcome = .error e ∧ result.input.pulls = 0 ∧
        (∀ table ∈ result.join, table.pulls = 0) ∧ result.sink.calls = []) ∧
    (∀ (plan : Plan) (spec : JoinSpec) (table : ρ) (e : RunError), plan.join = some spec →
      (JoinIndex.build spec table).outcome = .error e →
      let result := ((Execution.ofPlan plan).run (Metered.ofSource input) (some table)
        (Traced.ofSink sink)).1
      result.outcome = .error e ∧ result.input.pulls = 0 ∧ result.sink.calls = []) ∧
    (∀ (execution : Execution) (join : Option ρ) (e : QueryError),
      (execution.run input join sink).1.outcome.mapError .run = .error e → ¬e.IsTextual) := by
  refine ⟨?_, ?_, ?_⟩
  · intro e h he result
    have hprepared : prepareQuery settings query (RecordSource.header (Metered.ofSource input))
        catalog.metered.headers = .error e :=
      (prepareQuery_metered settings query input catalog).trans (prepareQuery_of_isTextual he h)
    obtain ⟨join, hjoin, hrun⟩ := exists_runQuery_eq_of_error hprepared (Traced.ofSink sink)
    have hresult : result = ⟨.error e, .ofSource input, join, .ofSink sink⟩ := hrun
    rw [hresult]
    refine ⟨rfl, rfl, ?_, rfl⟩
    intro table htable
    obtain ⟨name, hname⟩ := hjoin table htable
    exact Catalog.pulls_of_metered hname
  · intro plan spec table e hjoin hbuild result
    have hresult : result = plan.run (Metered.ofSource input) (some table) (Traced.ofSink sink) :=
      rfl
    rw [hresult, Plan.run_of_build_error hjoin hbuild]
    exact ⟨rfl, rfl, rfl⟩
  · intro execution join e h
    exact not_isTextual_of_mapError_run h

end Phases

theorem Plan.joinTable?_selectNamed :
    Plan.joinTable? "select a.x join b on a1 == b1".toList = .ok (some "b") := by
  have hisolated : IsolatedQuery.ofQuery "select a.x join b on a1 == b1".toList =
      .ok ⟨"select a.x join b on a1 == b1".toList, []⟩ := by decide +kernel
  have hfound : ClauseKind.all.mapM (KeywordPlace.one? "select a.x join b on a1 == b1".toList) =
      .ok [some ⟨.join, .inner, 11, 15⟩, some ⟨.select, .inner, 0, 6⟩, none, none, none, none,
        none, none] := rfl
  have hplaces : KeywordPlace.all "select a.x join b on a1 == b1".toList =
      .ok [⟨.select, .inner, 0, 6⟩, ⟨.join, .inner, 11, 15⟩] :=
    KeywordPlace.all_eq_ok hfound (List.Perm.swap _ _ _) (by decide)
  rw [Plan.joinTable?, hisolated, ok_bind, Clauses.locate_eq_ofPlaces hplaces]
  decide +kernel

/-- A query that names a column of a table without a header is refused, after its join table
has been opened. -/
theorem runQuery_selectNamed [Hashing] :
    let table := MemoryTable.ofRecords none [[.int 7]]
    runQuery .default "select a.x join b on a1 == b1".toList table
        (Catalog.ofList .ok [("b", table)]) (MemorySink.empty none) =
      ⟨.error (.query (.unknownColumn "x" .input)), table, some table, .empty none⟩ := by
  intro table
  have hopened : openQuery .default "select a.x join b on a1 == b1".toList
      (Catalog.ofList .ok [("b", table)]) = .ok ⟨Scope.empty, some ("b", table)⟩ := by
    rw [openQuery, Plan.joinTable?_selectNamed]
    rfl
  have hcolumns : ColumnMap.ofQuery "select a.x join b on a1 == b1".toList .input none =
      .error (.unknownColumn "x" .input) := by decide +kernel
  have hplan : planQuery "select a.x join b on a1 == b1".toList Scope.empty none
      (some none) = .error (.query (.unknownColumn "x" .input)) := by
    rw [planQuery, hcolumns]
    rfl
  have hheader : RecordSource.header table = none := rfl
  simp only [runQuery, hopened, Option.map_some, hheader, hplan]

/-- It has read no record then, of either table.  A join record without a key ends the run of a
query with an error of the data, before an input record is read. -/
theorem runQuery_error_phases_join :
    let table := MemoryTable.ofRecords none [[.int 7]]
    let sink := MemorySink.empty none
    let fault := DataFault.joinKey 1 (.noSuchColumn "b2")
    let refused := runQuery .default "select a.x join b on a1 == b1".toList
      (Metered.ofSource table) (Catalog.ofList .ok [("b", table)]).metered (Traced.ofSink sink)
    (refused.outcome = .error (.query (.unknownColumn "x" .input)) ∧ refused.input.pulls = 0 ∧
      (∀ joined ∈ refused.join, joined.pulls = 0) ∧ refused.sink.calls = []) ∧
    ∃ plan, Plan.ofQuery "select * join b on a1 == b2".toList ⟨[("a1", 0)], none⟩
        (some ⟨[("b2", 1)], none⟩) Scope.empty = .ok plan ∧
      let keyless := ((Execution.ofPlan plan).run (Metered.ofSource table) (some table)
        (Traced.ofSink sink)).1
      (keyless.outcome = .error (.data fault) ∧ keyless.input.pulls = 0 ∧
        keyless.sink.calls = []) ∧
      ¬(QueryError.run (.data fault)).IsTextual := by
  intro table sink fault refused
  obtain ⟨hpreparation, hindex, hrun⟩ := runQuery_error_phases .default
    "select a.x join b on a1 == b1".toList table (Catalog.ofList .ok [("b", table)]) sink
  obtain ⟨plan, hplan, hjoin⟩ : ∃ plan, Plan.ofQuery "select * join b on a1 == b2".toList
      ⟨[("a1", 0)], none⟩ (some ⟨[("b2", 1)], none⟩) Scope.empty = .ok plan ∧
      plan.join = some ⟨"b", .inner, [⟨.field .input 0 "a1", .field .join 1 "b2"⟩]⟩ :=
    ⟨_, Plan.ofQuery_joinKey, rfl⟩
  have hbuild : (JoinIndex.build ⟨"b", .inner, [⟨.field .input 0 "a1", .field .join 1 "b2"⟩]⟩
      table).outcome = .error (.data fault) := by cbv
  have hkeyless : ((Execution.ofPlan plan).run table (some table) sink).1.outcome =
      .error (.data fault) :=
    congrArg RunResult.outcome (Plan.run_of_build_error hjoin hbuild table sink)
  refine ⟨?_, plan, hplan, ?_, ?_⟩
  · exact hpreparation _ (congrArg QueryResult.outcome runQuery_selectNamed) (.inr rfl)
  · exact hindex plan _ table _ hjoin hbuild
  · refine hrun (.ofPlan plan) (some table) (.run (.data fault)) ?_
    rw [hkeyless]
    rfl

end TableQuery
