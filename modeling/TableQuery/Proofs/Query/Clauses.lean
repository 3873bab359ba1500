import Mathlib.Data.List.Nodup
import TableQuery.Query.Plan
import TableQuery.Proofs.Except

/-!
# What a plan takes over from the clauses of its query

The clauses of a query are checked against each other before they are read, and a plan
orders, groups and limits rows only if the query has a clause that says so.  Hence a query
that updates records has a plan without any of this.
-/

namespace TableQuery

/-- The clauses are found in the order of their keywords. -/
theorem KeywordPlace.all_eq_ok {query : List Char} {found : List (Option KeywordPlace)}
    {places : List KeywordPlace} (hfound : ClauseKind.all.mapM (one? query) = .ok found)
    (hperm : places.Perm (found.filterMap id))
    (hsorted : places.Pairwise fun p q => p.start < q.start) : all query = .ok places := by
  have hnodup : (places.map KeywordPlace.start).Nodup :=
    List.pairwise_map.mpr (hsorted.imp Nat.ne_of_lt)
  have hmerged := (List.mergeSort_perm (found.filterMap id)
    fun p q => decide (p.start ≤ q.start)).trans hperm.symm
  rw [all, hfound, ok_bind]
  refine congrArg Except.ok (List.Perm.eq_of_pairwise (fun p q hp hq hle hge => ?_)
    (List.pairwise_mergeSort ?_ ?_ _) ?_ hmerged)
  · have hstart : p.start = q.start :=
      Nat.le_antisymm (of_decide_eq_true hle) (of_decide_eq_true hge)
    exact List.inj_on_of_nodup_map hnodup (hmerged.mem_iff.mp hp) hq hstart
  · intro p q r hpq hqr
    simp only [decide_eq_true_eq] at hpq hqr ⊢
    exact Nat.le_trans hpq hqr
  · intro p q
    simpa using Nat.le_total p.start q.start
  · exact hsorted.imp fun hlt => decide_eq_true (Nat.le_of_lt hlt)

namespace Clauses

/-- The clauses of a query whose keywords have been found. -/
def ofPlaces (query : List Char) (places : List KeywordPlace) : Except QueryFault Clauses := do
  let has := fun kind => places.any fun place => place.kind == kind
  if has .select && has .update then throw .selectAndUpdate
  let clauses ← addAll query none places
  clauses.check
  return clauses

theorem locate_eq_ofPlaces {query : List Char} {places : List KeywordPlace}
    (hplaces : KeywordPlace.all query = .ok places) : locate query = ofPlaces query places := by
  rw [locate, hplaces]
  rfl

theorem not_both_of_firstConflict {pairs : List (Bool × ClauseKind × Bool × ClauseKind)}
    (h : firstConflict pairs = .ok ()) :
    ∀ pair ∈ pairs, ¬(pair.1 = true ∧ pair.2.2.1 = true) := by
  induction pairs with
  | nil => simp
  | cons pair pairs ih =>
    obtain ⟨hasFirst, first, hasSecond, second⟩ := pair
    rw [firstConflict] at h
    split at h
    · cases h
    · next hboth =>
      refine List.forall_mem_cons.mpr ⟨?_, ih h⟩
      simpa using hboth

/-- Clauses that have been located have been checked. -/
theorem check_of_locate {text : List Char} {clauses : Clauses}
    (h : locate text = .ok clauses) : clauses.check = .ok () := by
  obtain ⟨places, -, h⟩ := bind_eq_ok_iff.mp h
  dsimp only at h
  split at h
  · cases h
  · obtain ⟨located, -, h⟩ := bind_eq_ok_iff.mp h
    obtain ⟨⟨⟩, hcheck, h⟩ := bind_eq_ok_iff.mp h
    cases h
    exact hcheck

/-- An update clause does not go together with clauses that order, group or limit rows. -/
theorem eq_none_of_update {clauses : Clauses} (hcheck : clauses.check = .ok ())
    (hupdate : clauses.update.isSome) :
    clauses.orderBy = .none ∧ clauses.groupBy = .none ∧ clauses.limit = .none := by
  unfold check at hcheck
  simp only [hupdate, Bool.not_true, Bool.and_false] at hcheck
  have hpairs := not_both_of_firstConflict hcheck
  simp only [List.forall_mem_cons] at hpairs
  obtain ⟨horder, hgroup, hlimit, -⟩ := hpairs
  simpa using And.intro horder (And.intro hgroup hlimit)

end Clauses

namespace Plan

/-- What a plan takes over from the clauses of its query. -/
structure Follows (plan : Plan) (clauses : Clauses) : Prop where
  update : plan.isUpdate → clauses.select = none ∧ clauses.update.isSome
  orderBy : plan.orderBy.isSome = clauses.orderBy.isSome
  groupBy : plan.groupBy.isSome = clauses.groupBy.isSome
  distinct : plan.distinct = (clauses.select.map SelectClause.distinct).getD .no
  limit : plan.limit = clauses.rowLimit

theorem isSome_of_readList {query : IsolatedQuery} {names : Names} {kind : ClauseKind}
    {text : Option (List Char)} {exprs : Option (List Bound)} {count count' : Nat}
    (h : (readList query names kind text).run count = .ok (exprs, count')) :
    exprs.isSome = text.isSome := by
  cases text with
  | none =>
    cases h
    rfl
  | some text =>
    obtain ⟨parsed, _, -, h⟩ := run_bind_eq_ok_iff.mp h
    obtain ⟨bound, _, -, h⟩ := run_bind_eq_ok_iff.mp h
    cases h
    rfl

theorem isUpdate_of_readExclusion {query : IsolatedQuery} {columns : QueryColumns}
    {names : Names} {select exclusion : List Char} {body : Body} {count count' : Nat}
    (h : (readExclusion query columns names select exclusion).run count = .ok (body, count')) :
    body.1.isUpdate = false := by
  unfold readExclusion at h
  split at h
  · cases h
  · obtain ⟨excluded, _, -, h⟩ := run_bind_eq_ok_iff.mp h
    cases h
    rfl

theorem isUpdate_of_readItems {query : IsolatedQuery} {columns : QueryColumns} {names : Names}
    {select : SelectClause} {body : Body} {count count' : Nat}
    (h : (readItems query columns names select).run count = .ok (body, count')) :
    body.1.isUpdate = false := by
  obtain ⟨items, _, -, h⟩ := run_bind_eq_ok_iff.mp h
  obtain ⟨projections, _, -, h⟩ := run_bind_eq_ok_iff.mp h
  cases h
  rfl

/-- Only a query without a select clause updates records. -/
theorem update_of_readBody {query : IsolatedQuery} {columns : QueryColumns} {names : Names}
    {clauses : Clauses} {body : Body} {count count' : Nat}
    (h : (readBody query columns names clauses).run count = .ok (body, count'))
    (hupdate : body.1.isUpdate) : clauses.select = none ∧ clauses.update.isSome := by
  unfold readBody at h
  split at h
  · simp [isUpdate_of_readExclusion h] at hupdate
  · simp [isUpdate_of_readItems h] at hupdate
  · next hselect hsome => exact ⟨hselect, by simp [hsome]⟩
  · cases h

/-- How a plan is read off the clauses of its query.  Each clause is read with the number of
aggregates that have been met before it. -/
structure IsReadOff (plan : Plan) (query : IsolatedQuery) (columns : QueryColumns)
    (scope : Scope) (clauses : Clauses) : Prop where
  body : ∃ n, (readBody query columns (Names.ofQuery columns scope) clauses).run n =
    .ok ((plan.statement, plan.exclusion, plan.header), plan.aggregates)
  join : ∃ n n', (readJoin query (Names.ofQuery columns scope) clauses.join).run n =
    .ok (plan.join, n')
  condition : ∃ n n', (readCondition query (Names.ofQuery columns scope) clauses.condition).run n =
    .ok (plan.condition, n')
  orderBy : ∃ n n', (readList query (Names.ofQuery columns scope) .orderBy
    (clauses.orderBy.map OrderClause.text)).run n = .ok (plan.orderBy, n')
  groupBy : ∃ n n', (readList query (Names.ofQuery columns scope) .groupBy clauses.groupBy).run n =
    .ok (plan.groupBy, n')
  reverse : plan.reverse = clauses.orderBy.any OrderClause.reverse
  distinct : plan.distinct = (clauses.select.map SelectClause.distinct).getD .no
  limit : plan.limit = clauses.rowLimit

theorem isReadOff_of_readClauses {query : IsolatedQuery} {columns : QueryColumns} {scope : Scope}
    {clauses : Clauses} {plan : Plan} {count count' : Nat}
    (h : (readClauses query columns scope clauses).run count = .ok (plan, count')) :
    plan.IsReadOff query columns scope clauses := by
  obtain ⟨⟨statement, exclusion, header⟩, _, hbody, h⟩ := run_bind_eq_ok_iff.mp h
  obtain ⟨aggregates, _, haggregates, h⟩ := run_bind_eq_ok_iff.mp h
  obtain ⟨join, _, hjoin, h⟩ := run_bind_eq_ok_iff.mp h
  obtain ⟨condition, _, hcondition, h⟩ := run_bind_eq_ok_iff.mp h
  obtain ⟨orderBy, _, horder, h⟩ := run_bind_eq_ok_iff.mp h
  obtain ⟨groupBy, _, hgroup, h⟩ := run_bind_eq_ok_iff.mp h
  cases h
  cases haggregates
  exact ⟨⟨_, hbody⟩, ⟨_, _, hjoin⟩, ⟨_, _, hcondition⟩, ⟨_, _, horder⟩, ⟨_, _, hgroup⟩,
    rfl, rfl, rfl⟩

/-- What has been done where there is a plan for a query. -/
theorem exists_isReadOff_of_ofQuery {query : List Char} {input : ColumnMap}
    {join : Option ColumnMap} {scope : Scope} {plan : Plan}
    (h : ofQuery query input join scope = .ok plan) :
    ∃ isolated clauses columns, IsolatedQuery.ofQuery query = .ok isolated ∧
      Clauses.locate (countRows isolated.text) = .ok clauses ∧
      visibleColumns clauses input join = .ok columns ∧
      plan.IsReadOff { isolated with text := countRows isolated.text } columns scope clauses := by
  obtain ⟨isolated, hisolated, h⟩ := bind_eq_ok_iff.mp h
  obtain ⟨clauses, hlocate, h⟩ := bind_eq_ok_iff.mp h
  obtain ⟨columns, hcolumns, h⟩ := bind_eq_ok_iff.mp h
  obtain ⟨⟨plan', count⟩, hread, h⟩ := bind_eq_ok_iff.mp h
  cases h
  exact ⟨isolated, clauses, columns, hisolated, hlocate, hcolumns, isReadOff_of_readClauses hread⟩

theorem IsReadOff.follows {query : IsolatedQuery} {columns : QueryColumns} {scope : Scope}
    {clauses : Clauses} {plan : Plan} (h : plan.IsReadOff query columns scope clauses) :
    plan.Follows clauses := by
  obtain ⟨_, hbody⟩ := h.body
  obtain ⟨_, _, horder⟩ := h.orderBy
  obtain ⟨_, _, hgroup⟩ := h.groupBy
  exact {
    update := update_of_readBody hbody
    orderBy := by simpa using isSome_of_readList horder
    groupBy := isSome_of_readList hgroup
    distinct := h.distinct
    limit := h.limit }

/-- A plan is read from the clauses of its query. -/
theorem ofQuery_eq_of_clauses {query : List Char} {isolated : IsolatedQuery} {clauses : Clauses}
    (hisolated : IsolatedQuery.ofQuery query = .ok isolated)
    (hcount : countRows isolated.text = isolated.text)
    (hlocate : Clauses.locate isolated.text = .ok clauses) (input : ColumnMap)
    (join : Option ColumnMap) (scope : Scope) :
    ofQuery query input join scope = (visibleColumns clauses input join).bind fun columns =>
      (readClauses isolated columns scope clauses).run' 0 := by
  rw [ofQuery, hisolated, ok_bind]
  simp only [hcount, hlocate, ok_bind]
  rfl

/-- So it is read from the places of the keywords. -/
theorem ofQuery_eq_of_places {query : List Char} {places : List KeywordPlace}
    (hisolated : IsolatedQuery.ofQuery query = .ok ⟨query, []⟩)
    (hcount : countRows query = query) (hplaces : KeywordPlace.all query = .ok places)
    (input : ColumnMap) (join : Option ColumnMap) (scope : Scope) :
    ofQuery query input join scope =
      (Clauses.ofPlaces query places).bind fun clauses =>
        (visibleColumns clauses input join).bind fun columns =>
          (readClauses ⟨query, []⟩ columns scope clauses).run' 0 := by
  rw [ofQuery, hisolated, ok_bind]
  simp only [hcount, Clauses.locate_eq_ofPlaces hplaces]
  rfl

/-- The columns of two tables can be told apart if none of them are spelled alike. -/
theorem visibleColumns_eq_ok {clauses : Clauses} (hjoin : clauses.join.isSome)
    {input join : ColumnMap} (h : ∀ entry ∈ input.entries, join.get? entry.1 = none) :
    visibleColumns clauses input (some join) = .ok ⟨input, some join⟩ := by
  have hnone : (input.spellings.filter fun spelling => (join.get? spelling).isSome) = [] := by
    rw [List.filter_eq_nil_iff]
    intro spelling hspelling
    rw [ColumnMap.spellings, List.mem_mergeSort] at hspelling
    obtain ⟨entry, hentry, rfl⟩ := List.mem_map.mp hspelling
    simp [h entry hentry]
  obtain ⟨clause, hclause⟩ := Option.isSome_iff_exists.mp hjoin
  simp only [visibleColumns, hclause, ColumnMap.checkAmbiguity, hnone]
  rfl

/-- The plan for a query follows its clauses, which have been checked. -/
theorem exists_clauses_of_ofQuery {query : List Char} {input : ColumnMap}
    {join : Option ColumnMap} {scope : Scope} {plan : Plan}
    (h : ofQuery query input join scope = .ok plan) :
    ∃ clauses : Clauses, clauses.check = .ok () ∧ plan.Follows clauses := by
  obtain ⟨isolated, clauses, columns, -, hlocate, -, hread⟩ := exists_isReadOff_of_ofQuery h
  exact ⟨clauses, Clauses.check_of_locate hlocate, hread.follows⟩

/-- A query that updates records has a plan that neither orders nor groups nor limits
rows, nor tells them apart. -/
theorem plain_of_isUpdate {query : List Char} {input : ColumnMap} {join : Option ColumnMap}
    {scope : Scope} {plan : Plan} (h : ofQuery query input join scope = .ok plan)
    (hupdate : plan.isUpdate) :
    plan.orderBy = none ∧ plan.groupBy = none ∧ plan.distinct = .no ∧ plan.limit = none := by
  obtain ⟨clauses, hcheck, hfollows⟩ := exists_clauses_of_ofQuery h
  obtain ⟨hselect, hsome⟩ := hfollows.update hupdate
  obtain ⟨horder, hgroup, hlimit⟩ := Clauses.eq_none_of_update hcheck hsome
  have horder' := hfollows.orderBy
  have hgroup' := hfollows.groupBy
  rw [horder] at horder'
  rw [hgroup] at hgroup'
  refine ⟨by simpa using horder', by simpa using hgroup', ?_, ?_⟩
  · rw [hfollows.distinct, hselect]
    rfl
  · rw [hfollows.limit, Clauses.rowLimit, hlimit, hselect]
    rfl

end Plan
end TableQuery
