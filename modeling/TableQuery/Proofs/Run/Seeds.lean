import TableQuery.Proofs.Run.Continuation
import TableQuery.Proofs.Run.Partners

/-!
# Runs with different seeds

A plan that neither groups nor orders nor counts rows searches for the keys of the records
of both tables and, if it tells records apart, for the records that it writes.  Where equal
ones of these are hashed alike, every way of searching comes to the same, and a run does
not depend on its seed.  So a run over a longer input goes on from what a run over a shorter
one has written.  Where an integer meets the double that it is rounded to it need not.
-/

namespace TableQuery

section Agreement

variable (other : Hashing) [Hashing] {K : List Value → Prop} (hK : Keyed.Coherent K)

/-! ## The join table -/

namespace JoinIndex

include hK

theorem add_agrees {index : JoinIndex} {key : List Value} (hindex : index.partners.Among K)
    (hkey : K key) (partner : Partner) :
    @add other index key partner = index.add key partner ∧
      (index.add key partner).partners.Among K := by
  refine ⟨?_, hindex.alter hK hkey fun others => others.getD [] ++ [partner]⟩
  unfold add
  rw [hindex.alter_agrees other _ hK hkey]

theorem insert_agrees {index : JoinIndex} {number : Nat} {record : Record}
    (hindex : index.partners.Among K)
    (hkey : ∀ key, joinKey index.spec ⟨some number, record⟩ = .ok key → K key) :
    @insert other number record index = insert number record index ∧
      (insert number record index).2.spec = index.spec ∧
      (insert number record index).2.partners.Among K := by
  unfold insert
  dsimp only
  cases hjoin : joinKey index.spec ⟨some number, record⟩ with
  | error e => exact ⟨rfl, rfl, hindex⟩
  | ok key =>
    obtain ⟨hadd, hadded⟩ := add_agrees other hK hindex (hkey key hjoin) ⟨some number, record⟩
    exact ⟨by dsimp only; rw [hadd], rfl, hadded⟩

/-- A join table is read alike if the keys of its records are among the given ones. -/
theorem build_agrees {ρ : Type} [RecordSource ρ] {spec : JoinSpec} {table : ρ}
    (hkeys : ∀ i record key, (RecordSource.pulled table)[i]? = some record →
      joinKey spec ⟨some (i + 1), record⟩ = .ok key → K key) :
    @build other ρ _ spec table = build spec table ∧
      (build spec table).state.partners.Among K := by
  let P := fun index : JoinIndex => index.spec = spec ∧ index.partners.Among K
  have hstep : ∀ i record index, (RecordSource.pulled table)[i]? = some record → P index →
      @insert other (1 + i) record index = insert (1 + i) record index ∧
        P (insert (1 + i) record index).2 := by
    rintro i record index hrecord ⟨rfl, hindex⟩
    rw [Nat.add_comm]
    exact insert_agrees other hK hindex fun key => hkeys i record key hrecord
  have hstart : P (empty spec) := ⟨rfl, Keyed.among_nil⟩
  obtain ⟨hbuilt, -, hindex⟩ := feed_eq_and_keeps hstep hstart
  exact ⟨hbuilt, hindex⟩

end JoinIndex

/-! ## The output -/

/-- A stage of a plan that holds nothing back and searches among the given keys. -/
inductive Stage.IsAmong (plan : Plan) (K : List Value → Prop) : Stage → Prop where
  | unique {seen : Keyed Unit} (hdistinct : plan.distinct = .yes) (hseen : seen.Among K) :
    IsAmong plan K (.unique seen)
  | top (limit passed : Nat) : IsAmong plan K (.top limit passed)

/-- A row whose record is among the given ones, if the plan tells records apart. -/
def OutputRow.IsAmong (plan : Plan) (K : List Value → Prop) (row : OutputRow) : Prop :=
  plan.distinct = .yes → ∀ record, row.record = .ok record → K record

namespace Stage

variable {plan : Plan} {row : OutputRow}

include hK

/-- A stage takes a row alike, and lets pass only the record of the row. -/
theorem accept_agrees {stage : Stage} (hstage : stage.IsAmong plan K)
    (hrow : row.IsAmong plan K) :
    @accept other row stage = stage.accept row ∧ (stage.accept row).2.IsAmong plan K ∧
      ∀ flow, (stage.accept row).1 = .ok flow → ∀ passed ∈ flow.rows, passed.IsAmong plan K := by
  cases hstage with
  | @unique seen hdistinct hseen =>
    unfold accept
    cases hrecord : row.record with
    | error fault => exact ⟨rfl, .unique hdistinct hseen, nofun⟩
    | ok record =>
      have hkey : K record := hrow hdistinct record hrecord
      dsimp only
      unfold acceptUnique Keyed.contains
      rw [hseen.find?_agrees other _ hK hkey, hseen.alter_agrees other _ hK hkey]
      refine ⟨rfl, ?_, ?_⟩
      · split
        · exact .unique hdistinct hseen
        · exact .unique hdistinct (hseen.alter hK hkey fun _ => ())
      · rintro flow ⟨⟩
        split
        · exact List.forall_mem_nil _
        · refine List.forall_mem_singleton.mpr fun _ passed hpassed => ?_
          cases hpassed
          exact hkey
  | top limit passed =>
    refine ⟨rfl, ?_⟩
    have htakes := takes_accept (.top limit passed) row
    generalize (top limit passed).accept row = result at htakes ⊢
    obtain ⟨outcome, stage'⟩ := result
    cases htakes with
    | refused hneeds => cases hneeds
    | closed =>
      refine ⟨.top _ _, ?_⟩
      rintro flow ⟨⟩
      exact List.forall_mem_nil _
    | last | below =>
      refine ⟨.top _ _, ?_⟩
      rintro flow ⟨⟩
      exact List.forall_mem_singleton.mpr hrow

theorem acceptAll_agrees {stages : List Stage} (hstages : ∀ stage ∈ stages, stage.IsAmong plan K)
    (hrow : row.IsAmong plan K) :
    @acceptAll other row stages = acceptAll row stages ∧
      ∀ stage ∈ (acceptAll row stages).2, stage.IsAmong plan K := by
  induction stages generalizing row with
  | nil => exact ⟨rfl, List.forall_mem_nil _⟩
  | cons stage stages ih =>
    obtain ⟨hstage, hstages⟩ := List.forall_mem_cons.mp hstages
    obtain ⟨haccept, hstage', hpassed⟩ := accept_agrees other hK hstage hrow
    unfold acceptAll
    rw [haccept]
    rcases houtcome : stage.accept row with ⟨fault | flow, stage'⟩
    all_goals rw [houtcome] at hstage' hpassed
    · exact ⟨rfl, List.forall_mem_cons.mpr ⟨hstage', hstages⟩⟩
    · cases flow with
      | forward row' | last row' =>
        obtain ⟨hrest, hstages'⟩ := ih hstages
          (hpassed _ rfl row' (List.mem_singleton_self _))
        dsimp only
        rw [hrest]
        exact ⟨rfl, List.forall_mem_cons.mpr ⟨hstage', hstages'⟩⟩
      | kept | closed => exact ⟨rfl, List.forall_mem_cons.mpr ⟨hstage', hstages⟩⟩

end Stage

namespace Output

variable {τ : Type} [RecordSink τ] {plan : Plan}

include hK

theorem pass_agrees {row : OutputRow} {stages : List Stage}
    (hstages : ∀ stage ∈ stages, stage.IsAmong plan K) (hrow : row.IsAmong plan K)
    (outlet : Outlet τ) :
    @pass τ other _ row stages outlet = pass row stages outlet ∧
      ∀ stage ∈ (pass row stages outlet).2.1, stage.IsAmong plan K := by
  obtain ⟨haccept, hstages'⟩ := Stage.acceptAll_agrees other hK hstages hrow
  unfold pass
  rw [haccept]
  refine ⟨rfl, ?_⟩
  split
  all_goals
    rename_i houtcome
    rw [houtcome] at hstages'
    exact hstages'

theorem passAll_agrees {rows : List OutputRow} {stages : List Stage}
    (hstages : ∀ stage ∈ stages, stage.IsAmong plan K) (hrows : ∀ row ∈ rows, row.IsAmong plan K)
    (outlet : Outlet τ) :
    @passAll τ other _ rows stages outlet = passAll rows stages outlet ∧
      ∀ stage ∈ (passAll rows stages outlet).2.1, stage.IsAmong plan K := by
  induction rows generalizing stages outlet with
  | nil => exact ⟨rfl, hstages⟩
  | cons row rows ih =>
    obtain ⟨hrow, hrows⟩ := List.forall_mem_cons.mp hrows
    obtain ⟨hpass, hstages'⟩ := pass_agrees other hK hstages hrow outlet
    unfold passAll
    rw [hpass]
    rcases houtcome : pass row stages outlet with ⟨e | _ | _, stages', outlet'⟩
    all_goals rw [houtcome] at hstages'
    · exact ⟨rfl, hstages'⟩
    · exact ih hstages' hrows outlet'
    · exact ⟨rfl, hstages'⟩

theorem writeAll_agrees {output : Output τ} {rows : List OutputRow}
    (hstages : ∀ stage ∈ output.stages, stage.IsAmong plan K)
    (hrows : ∀ row ∈ rows, row.IsAmong plan K) :
    @writeAll τ other _ output rows = output.writeAll rows ∧
      ∀ stage ∈ (output.writeAll rows).2.stages, stage.IsAmong plan K := by
  obtain ⟨hpass, hstages'⟩ := passAll_agrees other hK hstages hrows output.outlet
  unfold writeAll
  rw [hpass]
  exact ⟨rfl, hstages'⟩

end Output

/-! ## The run -/

namespace Plan

variable {σ ρ τ : Type} [RecordSource σ] [RecordSource ρ] [RecordSink τ] {plan : Plan}

/-- The keys that a run over the given tables searches for: those of the records of both
tables and, if records are told apart, the records that are written. -/
inductive Searches (plan : Plan) (input : σ) (join : Option ρ) : List Value → Prop where
  | partner {spec : JoinSpec} {table : ρ} {i : Nat} {record : Record} {key : List Value}
    (hspec : plan.join = some spec) (htable : join = some table)
    (hrecord : (RecordSource.pulled table)[i]? = some record)
    (hkey : JoinIndex.joinKey spec ⟨some (i + 1), record⟩ = .ok key) :
    Searches plan input join key
  | input {index : JoinIndex} {i : Nat} {record : Record} {key : List Value}
    (hindex : plan.JoinsBy join (some index))
    (hrecord : (RecordSource.pulled input)[i]? = some record)
    (hkey : index.inputKey record (i + 1) = .ok key) :
    Searches plan input join key
  | written {index : Option JoinIndex} {i : Nat} {record written : Record} {row : OutputRow}
    (hdistinct : plan.distinct = .yes) (hindex : plan.JoinsBy join index)
    (hrecord : (RecordSource.pulled input)[i]? = some record)
    (hwrites : plan.Writes index (i + 1) record row) (hwritten : row.record = .ok written) :
    Searches plan input join written

omit [Hashing] in
theorem isAmong_ofPlan (hstreams : plan.waits = false) :
    ∀ stage ∈ Stage.ofPlan plan, stage.IsAmong plan K := by
  intro stage hstage
  obtain ⟨hdistinct, rfl⟩ | ⟨limit, rfl⟩ := Stage.cases_of_mem_ofPlan hstreams hstage
  · exact .unique hdistinct Keyed.among_nil
  · exact .top limit 0

/-- The input is read alike with an index whose keys are among those searched for. -/
theorem streamed_agrees (hstreams : plan.waits = false) {input : σ} {join : Option ρ}
    {index : Option JoinIndex} (hindex : plan.JoinsBy join index)
    (hpartners : ∀ index' ∈ index, index'.partners.Among (plan.Searches input join))
    (hcoherent : Keyed.Coherent (plan.Searches input join)) (sink : τ) :
    @streamed other σ τ _ _ plan index input sink = plan.streamed index input sink := by
  let P := fun progress : Progress τ =>
    ∀ stage ∈ progress.output.stages, stage.IsAmong plan (plan.Searches input join)
  have hstep : ∀ i record progress, (RecordSource.pulled input)[i]? = some record →
      P progress →
        @takeRecord τ other _ plan index (1 + i) record progress =
            plan.takeRecord index (1 + i) record progress ∧
          P (plan.takeRecord index (1 + i) record progress).2 := by
    intro i record progress hrecord hprogress
    rw [Nat.add_comm]
    refine takeRecord_agrees (K := fun output =>
      ∀ stage ∈ output.stages, stage.IsAmong plan (plan.Searches input join)) ?_ ?_ hprogress
    · intro output rows hrows hstages
      refine Output.writeAll_agrees other hcoherent hstages fun row hrow => ?_
      intro hdistinct written hwritten
      exact .written hdistinct hindex hrecord (hrows row hrow) hwritten
    · rintro index' rfl key hkey
      have hsearched : plan.Searches input join key := .input hindex hrecord hkey
      unfold JoinIndex.find
      rw [(hpartners index' rfl).find?_agrees other _ hcoherent hsearched]
  exact (feed_eq_and_keeps hstep (isAmong_ofPlan hstreams)).1

/-- A run writes the same records whatever its seed. -/
theorem records_run_agrees (hstreams : plan.waits = false) (input : σ) (join : Option ρ)
    (hcoherent : Keyed.Coherent (plan.Searches input join)) (sink : Traced τ) :
    (@run σ ρ (Traced τ) other _ _ _ plan input join sink).sink.records =
      (plan.run input join sink).sink.records := by
  unfold run
  cases hspec : plan.join with
  | none =>
    have hindex : plan.JoinsBy join none := hspec
    dsimp only
    rw [@records_stream _ _ _ other _ _ _ hstreams, records_stream hstreams,
      streamed_agrees other hstreams hindex nofun hcoherent]
  | some spec =>
    cases join with
    | none => rfl
    | some table =>
      obtain ⟨hbuilt, hpartners⟩ : _ ∧ (JoinIndex.build spec table).state.partners.Among _ :=
        JoinIndex.build_agrees other hcoherent fun i record key => .partner hspec rfl
      dsimp only
      rw [hbuilt]
      cases houtcome : (JoinIndex.build spec table).outcome with
      | error e => rfl
      | ok demand =>
        have hindex : plan.JoinsBy (some table) (some (JoinIndex.build spec table).state) :=
          ⟨spec, table, demand, hspec, rfl, houtcome, rfl⟩
        dsimp only
        rw [@records_stream _ _ _ other _ _ _ hstreams, records_stream hstreams,
          streamed_agrees other hstreams hindex ?_ hcoherent]
        rintro index ⟨⟩
        exact hpartners

end Plan

end Agreement

/-! ## Tables without doubles -/

namespace JoinSpec

/-- An equation compares a field or the number of an input record with one of a join record. -/
theorem sides_of_readPair {query : IsolatedQuery} {names : Names} {text : List Char}
    {count count' : Nat} {pair : KeyPair}
    (h : (readPair query names text).run count = .ok (pair, count')) :
    keySide? pair.input = some .input ∧ keySide? pair.join = some .join := by
  unfold readPair at h
  split at h
  · obtain ⟨left, _, -, h⟩ := run_bind_eq_ok_iff.mp h
    obtain ⟨right, _, -, h⟩ := run_bind_eq_ok_iff.mp h
    split at h
    · next hpair =>
      cases h
      unfold pair? at hpair
      split at hpair
      · next hleft hright =>
        cases hpair
        exact ⟨hleft, hright⟩
      · next hleft hright =>
        cases hpair
        exact ⟨hright, hleft⟩
      · cases hpair
    · cases h
  · cases h

theorem sides_of_read {query : IsolatedQuery} {names : Names} {clause : JoinClause}
    {count count' : Nat} {spec : JoinSpec}
    (h : (read query names clause).run count = .ok (spec, count')) :
    ∀ pair ∈ spec.keys, keySide? pair.input = some .input ∧ keySide? pair.join = some .join := by
  obtain ⟨⟨table, condition⟩, _, -, h⟩ := run_bind_eq_ok_iff.mp h
  obtain ⟨keys, _, hkeys, h⟩ := run_bind_eq_ok_iff.mp h
  cases h
  exact forall_mem_of_run_mapM (fun _ _ _ _ => sides_of_readPair) hkeys

/-- A field of a record without doubles, or its number, is no double. -/
theorem isFloatFree_of_keySide? {e : Bound} {side : Side} (hside : keySide? e = some side)
    {row : Row} (hrecord : ∀ record, row.record? side = some record → Value.areFloatFree record)
    {v : Value} (h : e.eval row [] = .ok v) : v.isFloatFree := by
  unfold keySide? at hside
  split at hside
  · next position spelling =>
    obtain rfl := Option.some.inj hside
    rw [Bound.eval] at h
    split at h
    · next found hfound =>
      cases h
      obtain ⟨record, hrow, hget⟩ := Option.bind_eq_some_iff.mp hfound
      exact Value.areFloatFree_iff.mp (hrecord record hrow) _ (List.mem_of_getElem? hget)
    · cases h
  · cases h
    unfold Row.recordNumber
    split
    · rfl
    · split <;> rfl
  · cases hside

theorem areFloatFree_of_keySide? {es : List Bound} {side : Side}
    (hside : ∀ e ∈ es, keySide? e = some side) {row : Row}
    (hrecord : ∀ record, row.record? side = some record → Value.areFloatFree record)
    {key : List Value} (h : Bound.evalAll row [] es = .ok key) : Value.areFloatFree key := by
  have hvalues := Bound.evalAll_eq_ok_iff.mp h
  clear h
  induction hvalues with
  | nil => rfl
  | cons heval _ ih =>
    obtain ⟨hfirst, hothers⟩ := List.forall_mem_cons.mp hside
    rw [Value.areFloatFree, isFloatFree_of_keySide? hfirst hrecord heval, ih hothers, Bool.and_self]

end JoinSpec

namespace Plan

theorem sides_of_ofQuery {query : List Char} {columns : ColumnMap} {joinColumns : Option ColumnMap}
    {scope : Scope} {plan : Plan} (h : ofQuery query columns joinColumns scope = .ok plan)
    {spec : JoinSpec} (hspec : plan.join = some spec) {pair : KeyPair} (hpair : pair ∈ spec.keys) :
    JoinSpec.keySide? pair.input = some .input ∧ JoinSpec.keySide? pair.join = some .join := by
  obtain ⟨isolated, clauses, _, -, -, -, hreadOff⟩ := exists_isReadOff_of_ofQuery h
  obtain ⟨_, _, hjoin⟩ := hreadOff.join
  rw [hspec] at hjoin
  cases hclause : clauses.join with
  | none =>
    rw [hclause] at hjoin
    cases hjoin
  | some clause =>
    rw [hclause] at hjoin
    obtain ⟨spec', _, hread, hjoin⟩ := run_bind_eq_ok_iff.mp hjoin
    cases hjoin
    exact JoinSpec.sides_of_read hread pair hpair

/-! ## Two runs -/

section Seeds

variable {σ σ' ρ τ : Type} [RecordSource σ] [RecordSource σ'] [RecordSource ρ] [RecordSink τ]
  {plan : Plan}

/-- The records that a fresh execution writes with a given seed. -/
def written (hashing : Hashing) (plan : Plan) (input : σ) (join : Option ρ) (sink : τ) :
    List Record :=
  ((Execution.ofPlan plan).run input join (Traced.ofSink sink)).1.sink.records

/-- A run with the given seed searches only for keys of which equal ones are hashed
alike. -/
def IsSettled (hashing : Hashing) (plan : Plan) (input : σ) (join : Option ρ) : Prop :=
  Keyed.Coherent (plan.Searches input join)

/-- Over tables without doubles a run of a query is settled if it writes no doubles either, or
does not tell records apart. -/
theorem isSettled_of_areFloatFree {hashing : Hashing} {query : List Char} {columns : ColumnMap}
    {joinColumns : Option ColumnMap} {scope : Scope}
    (hplan : ofQuery query columns joinColumns scope = .ok plan) {input : σ} {join : Option ρ}
    (hinput : ∀ record ∈ RecordSource.pulled input, Value.areFloatFree record)
    (hjoin : ∀ table, join = some table →
      ∀ record ∈ RecordSource.pulled table, Value.areFloatFree record)
    (hwrites : plan.distinct = .yes → ∀ index number record row,
      plan.Writes index number record row →
        ∀ written, row.record = .ok written → Value.areFloatFree written) :
    plan.IsSettled hashing input join := by
  refine Keyed.coherent_of_areFloatFree fun key hkey => ?_
  cases hkey with
  | partner hspec htable hrecord hkey =>
    refine JoinSpec.areFloatFree_of_keySide?
      (List.forall_mem_map.mpr fun pair hpair => (sides_of_ofQuery hplan hspec hpair).2) ?_ hkey
    rintro _ ⟨⟩
    exact hjoin _ htable _ (List.mem_of_getElem? hrecord)
  | input hindex hrecord hkey =>
    obtain ⟨spec, table, demand, hspec, -, hbuilt, rfl⟩ := hindex
    rw [JoinIndex.inputKey, (JoinIndex.indexes_of_build hbuilt).spec_eq] at hkey
    replace hkey := eq_ok_of_mapError hkey
    refine JoinSpec.areFloatFree_of_keySide?
      (List.forall_mem_map.mpr fun pair hpair => (sides_of_ofQuery hplan hspec hpair).1) ?_ hkey
    rintro _ ⟨⟩
    exact hinput _ (List.mem_of_getElem? hrecord)
  | written hdistinct _ _ hwrites' hwritten => exact hwrites hdistinct _ _ _ _ hwrites' _ hwritten

/-- A run that neither groups nor orders nor counts rows writes over a longer input what it
writes over a shorter one, and possibly more behind it, however the two runs end: with the
same seed always, and with another one if the run over the shorter input searches only for
keys of which equal ones are hashed alike. -/
theorem run_extends {first second : Hashing} (hstreams : plan.waits = false) {input : σ}
    {longer : σ'} (hinput : RecordSource.pulled input <+: RecordSource.pulled longer)
    {join : Option ρ} (hseeds : first = second ∨ plan.IsSettled first input join) (sink : τ) :
    plan.written first input join sink <+: plan.written second longer join sink := by
  have hagrees : plan.written second input join sink = plan.written first input join sink := by
    rcases hseeds with rfl | hsettled
    · rfl
    · exact @records_run_agrees second first σ ρ τ _ _ _ plan hstreams input join hsettled
        (Traced.ofSink sink)
  rw [← hagrees]
  exact records_run_extend hstreams hinput join (Traced.ofSink sink)

end Seeds

/-- A query that asks for the different lengths of a field of the partners. -/
theorem ofQuery_distinctLengths :
    ofQuery "select distinct len(b2) join b on a1 == b1".toList ⟨[("a1", 0)], none⟩
        (some ⟨[("b1", 0), ("b2", 1)], none⟩) Scope.empty =
      .ok ⟨.select [.value (.call .len [.field .join 1 "b2"])], none,
        some ⟨"b", .inner, [⟨.field .input 0 "a1", .field .join 0 "b1"⟩]⟩, none, false, none,
        .yes, none, none, 0, none⟩ := by
  have hfound : ClauseKind.all.mapM
      (KeywordPlace.one? "select distinct len(b2) join b on a1 == b1".toList) =
      .ok [some ⟨.join, .inner, 24, 28⟩, some ⟨.select, .inner, 0, 6⟩, none, none, none, none,
        none, none] := rfl
  have hplaces : KeywordPlace.all "select distinct len(b2) join b on a1 == b1".toList =
      .ok [⟨.select, .inner, 0, 6⟩, ⟨.join, .inner, 24, 28⟩] :=
    KeywordPlace.all_eq_ok hfound (List.Perm.swap _ _ _) (by decide)
  rw [ofQuery_eq_of_places (by decide +kernel) (by decide +kernel) hplaces]
  decide +kernel

/-- The lengths that are asked for are integers. -/
theorem areFloatFree_of_writes_lengths {hashing : Hashing} {plan : Plan} {e : Bound}
    (hstatement : plan.statement = .select [.value (.call .len [e])])
    (hcondition : plan.condition = none) (horder : plan.orderBy = none)
    (hplain : plan.isAggregate = false) {index : Option JoinIndex} {number : Nat}
    {record written : Record} {row : OutputRow} (hwrites : plan.Writes index number record row)
    (hwritten : row.record = .ok written) : Value.areFloatFree written := by
  cases hwrites with
  | kept hupdate | updated hupdate => rw [hstatement] at hupdate; cases hupdate
  | @selected items rows source out _ hitems _ _ hout hmem =>
    obtain rfl : [.value (.call .len [e])] = items := by
      rw [hstatement] at hitems
      exact Statement.select.inj hitems
    rw [rowsOf, selects, hcondition, hplain] at hout
    replace hout : plan.outputRows [.value (.call .len [e])] source = .ok out := hout
    rw [outputRows, horder] at hout
    obtain ⟨projected, hprojected, hout⟩ := bind_eq_ok_iff.mp hout
    cases hout
    obtain ⟨_, hitem, hrest⟩ := bind_eq_ok_iff.mp hprojected
    cases hrest
    obtain ⟨v, hv, hprojected⟩ := bind_eq_ok_iff.mp hitem
    cases hprojected
    obtain ⟨args, -, hlength⟩ := bind_eq_ok_iff.mp (eq_ok_of_mapError hv)
    cases List.mem_singleton.mp hmem
    cases hwritten
    replace hlength : Builtin.lengthOf .len (args[0]?.getD .null) = .ok v := hlength
    unfold Builtin.lengthOf at hlength
    split at hlength <;> cases hlength <;> rfl

/-- Two runs with different seeds.  The second partner of the record that is added has a number
in the field, which has no length, so that only the first one is written. -/
theorem run_extends_distinctLengths :
    ∃ plan, ofQuery "select distinct len(b2) join b on a1 == b1".toList ⟨[("a1", 0)], none⟩
        (some ⟨[("b1", 0), ("b2", 1)], none⟩) Scope.empty = .ok plan ∧
      let table := fun records => MemoryTable.ofRecords none records
      let shorter := table [[.text "x"], [.text "x"]]
      let longer := table ([[.text "x"], [.text "x"]] ++ [[.text "y"]])
      let partners := some (table
        [[.text "x", .text "long"], [.text "y", .text "ab"], [.text "y", .int 7]])
      let sink := MemorySink.empty none
      let first := Hashing.ofFirst false
      let second := Hashing.ofFirst true
      plan.waits = false ∧ RecordSource.pulled shorter <+: RecordSource.pulled longer ∧
        plan.IsSettled first shorter partners ∧
        plan.written first shorter partners sink <+: plan.written second longer partners sink ∧
        plan.written first shorter partners sink = [[.int 4]] ∧
        plan.written second longer partners sink = [[.int 4], [.int 2]] := by
  have hlonger : RecordSource.pulled
        (MemoryTable.ofRecords none [[.text "x"], [.text "x"]]) <+:
      RecordSource.pulled
        (MemoryTable.ofRecords none ([[.text "x"], [.text "x"]] ++ [[.text "y"]])) := by
    rw [MemoryTable.pulled_ofRecords, MemoryTable.pulled_ofRecords]
    exact List.prefix_append _ _
  refine ⟨_, ofQuery_distinctLengths, rfl, hlonger, ?settled,
    run_extends rfl hlonger (.inr ?settled) _, by decide +kernel, by decide +kernel⟩
  refine isSettled_of_areFloatFree ofQuery_distinctLengths ?_ ?_ fun _ _ _ _ _ hwrites _ =>
    areFloatFree_of_writes_lengths rfl rfl rfl rfl hwrites
  · rw [MemoryTable.pulled_ofRecords]
    decide
  · rintro table ⟨⟩
    rw [MemoryTable.pulled_ofRecords]
    decide

/-- A query for the different values of a field. -/
theorem ofQuery_distinctField :
    ofQuery "select distinct a1".toList ⟨[("a1", 0)], none⟩ none Scope.empty =
      .ok ⟨.select [.value (.field .input 0 "a1")], none, none, none, false, none, .yes, none,
        none, 0, none⟩ := by
  have hfound : ClauseKind.all.mapM (KeywordPlace.one? "select distinct a1".toList) =
      .ok [none, some ⟨.select, .inner, 0, 6⟩, none, none, none, none, none, none] := rfl
  have hplaces : KeywordPlace.all "select distinct a1".toList = .ok [⟨.select, .inner, 0, 6⟩] :=
    KeywordPlace.all_eq_ok hfound (List.Perm.refl _) (by decide)
  rw [ofQuery_eq_of_places (by decide +kernel) (by decide +kernel) hplaces]
  decide +kernel

/-- An integer and the double that it is rounded to are equal and hashed apart.  A run that
keeps both has written a record that a run with another seed does not write. -/
theorem run_not_extends_roundedInteger :
    ∃ plan, ofQuery "select distinct a1".toList ⟨[("a1", 0)], none⟩ none Scope.empty = .ok plan ∧
      let table := fun records => MemoryTable.ofRecords none records
      let records : List Record := [[.int 9007199254740993], [.float ⟨0x4340000000000000⟩]]
      let written := fun hashing records =>
        plan.written hashing (table records) (none : Option MemoryTable) (MemorySink.empty none)
      plan.waits = false ∧
        written (Hashing.ofFirst true) records = records ∧
        written (Hashing.ofFirst false) (records ++ [[.text "z"]]) =
          [[.int 9007199254740993], [.text "z"]] ∧
        ¬written (Hashing.ofFirst true) records <+:
          written (Hashing.ofFirst false) (records ++ [[.text "z"]]) :=
  ⟨_, ofQuery_distinctField, rfl, by decide +kernel, by decide +kernel, by decide +kernel⟩

end Plan
end TableQuery
