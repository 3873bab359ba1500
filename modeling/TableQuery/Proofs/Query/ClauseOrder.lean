import TableQuery.Proofs.Query.ClauseTexts

/-!
# Clauses in any order

Of a select query whose clauses are written with single spaces between them, in whatever
order, every clause is found with its text, its kind and its numbers.  The scans find the
keywords where they have been written, each clause adds what it says to the clauses found
so far, and clauses of different kinds do so in any order.
-/

namespace TableQuery

/-- A clause after the select clause, as it is written. -/
inductive FurtherClause where
  /-- A join clause. -/
  | join (keyword : ClauseKeyword .join) (text : ClauseText)
  /-- The condition. -/
  | condition (keyword : ClauseKeyword .condition) (text : ClauseText)
  /-- The order. -/
  | orderBy (keyword : ClauseKeyword .orderBy) (order : OrderText)
  /-- The expressions that rows are grouped by. -/
  | groupBy (keyword : ClauseKeyword .groupBy) (text : ClauseText)
  /-- The row limit. -/
  | limit (keyword : ClauseKeyword .limit) (count : LimitText)
  /-- The columns that are left out. -/
  | exclusion (keyword : ClauseKeyword .exclusion) (text : ClauseText)

namespace FurtherClause

/-- The clause with its keyword and its text. -/
def written : FurtherClause → WrittenClause
  | join keyword text => ⟨.join, keyword, text.1, text.2⟩
  | condition keyword text => ⟨.condition, keyword, text.1, text.2⟩
  | orderBy keyword order => ⟨.orderBy, keyword, order.body, order.isClauseText_body⟩
  | groupBy keyword text => ⟨.groupBy, keyword, text.1, text.2⟩
  | limit keyword count => ⟨.limit, keyword, count.digits, count.isNeutral.isClauseText⟩
  | exclusion keyword text => ⟨.exclusion, keyword, text.1, text.2⟩

/-- The clauses found so far with what a clause says. -/
def addTo (found : Clauses) : FurtherClause → Clauses
  | join keyword text => { found with join := some ⟨keyword.joinKind, text.1⟩ }
  | condition _ text => { found with condition := some text.1 }
  | orderBy _ order => { found with orderBy := some order.clause }
  | groupBy _ text => { found with groupBy := some text.1 }
  | limit _ count => { found with limit := some count.value }
  | exclusion _ text => { found with exclusion := some text.1 }

/-- A clause that has been written is added as what it says. -/
theorem add_written (found : Clauses) (clause : FurtherClause) (position : Nat) :
    found.add (clause.written.place position) clause.written.body =
      .ok (addTo found clause) := by
  cases clause with
  | join keyword text =>
    change (Clauses.nonEmpty .join text.1 >>= _) = _
    rw [text.2.nonEmpty_eq_ok]
    rfl
  | condition keyword text =>
    change (Clauses.nonEmpty .condition text.1 >>= _) = _
    rw [text.2.nonEmpty_eq_ok]
    rfl
  | orderBy keyword order =>
    change (Clauses.readOrder order.body >>= _) = _
    rw [Clauses.readOrder_body]
    rfl
  | groupBy keyword text =>
    change (Clauses.nonEmpty .groupBy text.1 >>= _) = _
    rw [text.2.nonEmpty_eq_ok]
    rfl
  | limit keyword count =>
    change (Clauses.readLimit count.digits >>= _) = _
    rw [count.readLimit_digits]
    rfl
  | exclusion keyword text =>
    change (Clauses.nonEmpty .exclusion text.1 >>= _) = _
    rw [text.2.nonEmpty_eq_ok]
    rfl

/-- Clauses of different kinds are added in any order. -/
theorem addTo_comm {clause other : FurtherClause}
    (hne : clause.written.kind ≠ other.written.kind) (found : Clauses) :
    addTo (addTo found clause) other = addTo (addTo found other) clause := by
  cases clause <;> cases other <;> first | rfl | exact absurd rfl hne

/-- Clauses that have been written one after another are all added. -/
theorem addAll_placesAfter {query : List Char} {position : Nat} {clauses : List FurtherClause}
    (hquery : query.drop position = WrittenClause.writeAfter (clauses.map written))
    (found : Clauses) :
    Clauses.addAll query found (WrittenClause.placesAfter position (clauses.map written)) =
      .ok (clauses.foldl addTo found) := by
  induction clauses generalizing position found with
  | nil => rfl
  | cons clause clauses ih =>
    rw [List.map_cons, WrittenClause.writeAfter_cons] at hquery
    have hnext : query.drop (position + 1) =
        clause.written.chars ++ WrittenClause.writeAfter (clauses.map written) := by
      rw [← List.drop_drop, hquery]
      rfl
    rw [List.map_cons, WrittenClause.placesAfter, WrittenClause.addAll_place hnext, add_written]
    refine ih ?_ _
    rw [← List.drop_drop, hnext, List.drop_left]

end FurtherClause

/-- A select query as it is written, apart from the order of its clauses.  It is not both
ordered and grouped, and it does not join if it leaves out columns. -/
structure WrittenQuery where
  /-- The keyword of the select clause. -/
  keyword : ClauseKeyword .select
  /-- The select clause. -/
  select : SelectText
  /-- The join clause. -/
  join : Option (ClauseKeyword .join × ClauseText)
  /-- The condition. -/
  condition : Option (ClauseKeyword .condition × ClauseText)
  /-- The order. -/
  orderBy : Option (ClauseKeyword .orderBy × OrderText)
  /-- The expressions that rows are grouped by. -/
  groupBy : Option (ClauseKeyword .groupBy × ClauseText)
  /-- The row limit. -/
  limit : Option (ClauseKeyword .limit × LimitText)
  /-- The columns that are left out. -/
  exclusion : Option (ClauseKeyword .exclusion × ClauseText)
  ungrouped : orderBy.isSome → groupBy = none
  unjoined : exclusion.isSome → join = none

namespace WrittenQuery

/-- The clauses after the select clause. -/
def further (query : WrittenQuery) : List FurtherClause :=
  [query.join.map fun clause => .join clause.1 clause.2,
    query.condition.map fun clause => .condition clause.1 clause.2,
    query.orderBy.map fun clause => .orderBy clause.1 clause.2,
    query.groupBy.map fun clause => .groupBy clause.1 clause.2,
    query.limit.map fun clause => .limit clause.1 clause.2,
    query.exclusion.map fun clause => .exclusion clause.1 clause.2].filterMap id

/-- What the clauses of the query say. -/
def clauses (query : WrittenQuery) : Clauses where
  select := some query.select.clause
  update := none
  condition := query.condition.map fun clause => clause.2.1
  orderBy := query.orderBy.map fun clause => clause.2.clause
  groupBy := query.groupBy.map fun clause => clause.2.1
  join := query.join.map fun clause => ⟨clause.1.joinKind, clause.2.1⟩
  limit := query.limit.map fun clause => clause.2.value
  exclusion := query.exclusion.map fun clause => clause.2.1

/-- The select clause with its keyword and its text. -/
def selectClause (query : WrittenQuery) : WrittenClause :=
  ⟨.select, query.keyword, query.select.body, query.select.isClauseText_body⟩

/-- The text of the query with single spaces between its clauses, those after the select
clause in the given order. -/
def write (query : WrittenQuery) (order : List FurtherClause) : List Char :=
  Text.joinWith [' '] (query.selectClause.chars :: order.map fun clause => clause.written.chars)

theorem write_eq (query : WrittenQuery) (order : List FurtherClause) :
    query.write order =
      WrittenClause.write query.selectClause (order.map FurtherClause.written) := by
  rw [write, Text.joinWith_cons_eq_append_flatMap, List.flatMap_map, WrittenClause.write,
    WrittenClause.writeAfter, List.flatMap_map]
  rfl

theorem map_kind_sublist {clauses : List (Option FurtherClause)} {kinds : List ClauseKind}
    (h : List.Forall₂ (fun o kind => ∀ clause ∈ o, clause.written.kind = kind) clauses kinds) :
    List.Sublist ((clauses.filterMap id).map fun clause => clause.written.kind) kinds := by
  induction h with
  | nil => exact List.nil_sublist _
  | @cons o kind clauses kinds hkind _ ih =>
    cases o with
    | none => exact ih.cons kind
    | some clause =>
      obtain rfl := hkind clause rfl
      exact ih.cons_cons _

/-- The clauses are of different kinds. -/
theorem nodup_kinds (query : WrittenQuery) :
    (ClauseKind.select :: query.further.map fun clause => clause.written.kind).Nodup := by
  have hall : [ClauseKind.select, .join, .condition, .orderBy, .groupBy, .limit,
      .exclusion].Nodup := by decide
  refine hall.sublist (.cons_cons _ (map_kind_sublist
    (.cons ?_ (.cons ?_ (.cons ?_ (.cons ?_ (.cons ?_ (.cons ?_ .nil))))))))
  all_goals
    intro clause hclause
    obtain ⟨_, -, rfl⟩ := Option.map_eq_some_iff.mp hclause
    rfl

/-- Adding the clauses gives what they say. -/
theorem foldl_further (query : WrittenQuery) :
    query.further.foldl FurtherClause.addTo
      { Clauses.none with select := some query.select.clause } = query.clauses := by
  obtain ⟨keyword, select, join, condition, orderBy, groupBy, limit, exclusion, -, -⟩ := query
  cases join <;> cases condition <;> cases orderBy <;> cases groupBy <;> cases limit <;>
    cases exclusion <;> rfl

/-- The clauses go together. -/
theorem check_clauses (query : WrittenQuery) : query.clauses.check = .ok () := by
  have hgrouped : (query.clauses.orderBy.isSome && query.clauses.groupBy.isSome) = false := by
    simp only [clauses, Option.isSome_map]
    cases horder : query.orderBy.isSome with
    | false => rfl
    | true => rw [query.ungrouped horder]; rfl
  have hjoined : (query.clauses.exclusion.isSome && query.clauses.join.isSome) = false := by
    simp only [clauses, Option.isSome_map]
    cases hexclusion : query.exclusion.isSome with
    | false => rfl
    | true => rw [query.unjoined hexclusion]; rfl
  have hselect : query.clauses.select.isSome = true := rfl
  have hupdate : query.clauses.update.isSome = false := rfl
  simp only [Clauses.check, hselect, hupdate, Clauses.firstConflict, hgrouped, hjoined,
    Bool.and_false]
  rfl

/-- The clauses that have been written are added as what they say. -/
theorem addAll_places (query : WrittenQuery) {order : List FurtherClause}
    (horder : order.Perm query.further) (hkinds : (order.map fun clause =>
      clause.written.kind).Nodup) :
    Clauses.addAll (query.write order) Clauses.none
      (WrittenClause.places query.selectClause (order.map FurtherClause.written)) =
      .ok query.clauses := by
  have hquery : (query.write order).drop 0 = query.selectClause.chars ++
      WrittenClause.writeAfter (order.map FurtherClause.written) := query.write_eq order
  have hselect : Clauses.none.add (query.selectClause.place 0) query.select.body =
      .ok { Clauses.none with select := some query.select.clause } := by
    change (Clauses.readSelect query.select.body >>= _) = _
    rw [Clauses.readSelect_body]
    rfl
  have hrest : (query.write order).drop (0 + query.selectClause.chars.length) =
      WrittenClause.writeAfter (order.map FurtherClause.written) := by
    rw [← List.drop_drop, hquery, List.drop_left]
  -- Two clauses of the query are the same one or of different kinds.
  have hcomm : ∀ clause ∈ order, ∀ other ∈ order, ∀ found,
      FurtherClause.addTo (FurtherClause.addTo found clause) other =
        FurtherClause.addTo (FurtherClause.addTo found other) clause := by
    intro clause hclause other hother found
    by_cases hkind : clause.written.kind = other.written.kind
    · rw [List.inj_on_of_nodup_map hkinds hclause hother hkind]
    · exact FurtherClause.addTo_comm hkind found
  have hplace := WrittenClause.addAll_place hquery Clauses.none
  rw [Nat.zero_add] at hplace hrest
  rw [WrittenClause.places, hplace]
  change (Clauses.none.add (query.selectClause.place 0) query.select.body).bind _ = _
  rw [hselect]
  change Clauses.addAll _ _ _ = _
  rw [FurtherClause.addAll_placesAfter hrest, horder.foldl_eq' hcomm, foldl_further]

/-- The clauses of a query are found in whatever order they are written. -/
theorem locate_write (query : WrittenQuery) {order : List FurtherClause}
    (horder : order.Perm query.further) :
    Clauses.locate (query.write order) = .ok query.clauses := by
  obtain ⟨hselect, hkinds⟩ := List.nodup_cons.mp
    (((horder.map fun clause => clause.written.kind).cons .select).nodup_iff.mpr query.nodup_kinds)
  have hnodup : ((query.selectClause :: order.map FurtherClause.written).map
      WrittenClause.kind).Nodup := by
    rw [List.map_cons, List.map_map]
    exact List.nodup_cons.mpr ⟨hselect, hkinds⟩
  have hupdate : ((WrittenClause.places query.selectClause
      (order.map FurtherClause.written)).any fun place => place.kind == .update) = false := by
    refine List.any_eq_false.mpr fun place hplace hkind => ?_
    have hmem := List.mem_map_of_mem (f := KeywordPlace.kind) hplace
    rw [WrittenClause.map_kind_places, eq_of_beq hkind, List.map_cons, List.map_map] at hmem
    rcases List.mem_cons.mp hmem with h | h
    · cases h
    · obtain ⟨clause, -, hclause⟩ := List.mem_map.mp h
      cases clause <;> cases hclause
  have hadded := query.addAll_places horder hkinds
  rw [write_eq] at hadded ⊢
  rw [Clauses.locate_eq_ofPlaces (WrittenClause.all_write hnodup), Clauses.ofPlaces]
  dsimp only
  rw [if_neg fun hboth => Bool.false_ne_true (hupdate ▸ (Bool.and_eq_true_iff.mp hboth).2), hadded]
  change (query.clauses.check >>= fun _ => .ok query.clauses) = _
  rw [query.check_clauses]
  rfl

/-- A query whose clauses stand in an unusual order. -/
theorem locate_write_reversed :
    ∃ (query : WrittenQuery) (order : List FurtherClause), order.Perm query.further ∧
      query.write order = ("Select top 5 distinct COUNT a1, a2 limit 3 Order by a1 Desc " ++
        "where a2 > 1 LEFT outer JOIN b.csv on a1 == b1").toList ∧
      Clauses.locate (query.write order) = .ok ⟨some ⟨"a1, a2".toList, some 5, .counted⟩, none,
        some "a2 > 1".toList, some ⟨"a1".toList, true⟩, none,
        some ⟨.left, "b.csv on a1 == b1".toList⟩, some 3, none⟩ := by
  let query : WrittenQuery := {
    keyword := ⟨.inner, ["Select".toList], by decide⟩
    select := {
      top := some (⟨"top".toList, by decide⟩, ⟨"5".toList, by decide, by decide, by decide⟩)
      distinct := .counted ⟨"distinct".toList, by decide⟩ ⟨"COUNT".toList, by decide⟩
      list := ⟨"a1, a2".toList, by decide +kernel⟩
      opening := by decide +kernel }
    join := some (⟨.left, ["LEFT".toList, "outer".toList, "JOIN".toList], by decide⟩,
      ⟨"b.csv on a1 == b1".toList, by decide +kernel⟩)
    condition := some (⟨.inner, ["where".toList], by decide⟩,
      ⟨"a2 > 1".toList, by decide +kernel⟩)
    orderBy := some (⟨.inner, ["Order".toList, "by".toList], by decide⟩, {
      list := ⟨"a1".toList, by decide +kernel⟩
      direction := some (.descending "Desc".toList (by decide))
      closing := by decide +kernel })
    groupBy := none
    limit := some (⟨.inner, ["limit".toList], by decide⟩,
      ⟨"3".toList, by decide, by decide, by decide⟩)
    exclusion := none
    ungrouped := fun _ => rfl
    unjoined := nofun }
  exact ⟨query, query.further.reverse, List.reverse_perm _, by decide +kernel,
    locate_write query (List.reverse_perm _)⟩

/-- With the long s the word `desc` is taken off the text as a direction, but it is not read
as one. -/
theorem locate_longS :
    "deſc".toList.map Text.foldToCapital = "DESC".toList ∧
      Clauses.locate "select a1 order by a1 deſc".toList =
        .ok { Clauses.none with
          select := some ⟨"a1".toList, none, .no⟩
          orderBy := some ⟨"a1".toList, false⟩ } := by
  refine ⟨by decide, ?_⟩
  have hfound : ClauseKind.all.mapM (KeywordPlace.one? "select a1 order by a1 deſc".toList) =
      .ok [none, some ⟨.select, .inner, 0, 6⟩, some ⟨.orderBy, .inner, 10, 18⟩, none, none, none,
        none, none] := rfl
  rw [Clauses.locate_eq_ofPlaces (KeywordPlace.all_eq_ok hfound (.refl _) (by decide))]
  rfl

end WrittenQuery
end TableQuery
