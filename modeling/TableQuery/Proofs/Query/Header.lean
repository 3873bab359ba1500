import TableQuery.Proofs.Query.Clauses

/-!
# The number of names in the output header

The header of the output is made of the select list and the headers of the tables.  A star
adds the names of a table, any other item adds one name, and the count of equal rows has a
name of its own in front.  So the header has as many names as the items have fields, where
the records have as many fields as their tables have columns.
-/

namespace TableQuery

/-- How many of the first indices are not left out. -/
def keptCount (excluded : List Nat) (n : Nat) : Nat :=
  (List.range n).countP fun i => !excluded.contains i

/-- The number of fields that a star stands for, where an input record and its partner have
the given numbers of fields. -/
def Star.width (exclusion : Option (List Nat)) (input join : Nat) : Star → Nat
  | .all => input + join
  | .input =>
    match exclusion with
    | none => input
    | some excluded => keptCount excluded input
  | .join => join

/-- The number of fields that an item of a select list adds to a row. -/
def Projection.width (exclusion : Option (List Nat)) (input join : Nat) : Projection → Nat
  | .star source => source.width exclusion input join
  | .value _ => 1

/-- Whether an item of a select list stands for the fields of the join record. -/
def Projection.addsPartner : Projection → Bool
  | .star .all => true
  | .star .join => true
  | _ => false

/-- The number of fields of the rows for a select list. -/
def selectWidth (exclusion : Option (List Nat)) (items : List Projection)
    (input join : Nat) : Nat :=
  match items with
  | [] => 0
  | item :: items => item.width exclusion input join + selectWidth exclusion items input join

@[simp] theorem selectWidth_nil (exclusion : Option (List Nat)) (input join : Nat) :
    selectWidth exclusion [] input join = 0 :=
  rfl

@[simp] theorem selectWidth_cons (exclusion : Option (List Nat)) (item : Projection)
    (items : List Projection) (input join : Nat) :
    selectWidth exclusion (item :: items) input join =
      item.width exclusion input join + selectWidth exclusion items input join :=
  rfl

theorem Projection.width_eq (exclusion : Option (List Nat)) (input join : Nat)
    (item : Projection) : item.width exclusion input join =
      item.width exclusion input 0 + if item.addsPartner then join else 0 := by
  rcases item with source | e
  · cases source <;> simp [width, Star.width, addsPartner]
  · simp [width, addsPartner]

/-- The fields of the partner are added once for each star that stands for them. -/
theorem selectWidth_eq (exclusion : Option (List Nat)) (items : List Projection)
    (input join : Nat) : selectWidth exclusion items input join =
      selectWidth exclusion items input 0 + items.countP Projection.addsPartner * join := by
  induction items with
  | nil => simp
  | cons item items ih =>
    rw [selectWidth_cons, selectWidth_cons, ih, item.width_eq exclusion input join,
      List.countP_cons]
    split <;> simp [Nat.add_mul] <;> omega

namespace Plan

theorem length_without {α : Type} (excluded : List Nat) (items : List α) :
    (without excluded items).length = keptCount excluded items.length := by
  have hindices : items.zipIdx.map Prod.snd = List.range items.length := by
    rw [List.zipIdx_map_snd, List.range_eq_range']
  rw [without, List.length_map, ← List.countP_eq_length_filter, keptCount, ← hindices,
    List.countP_map]
  rfl

/-! ## Items -/

/-- An item of a select list and what it adds to a row. -/
inductive Bindable : SelectItem → Projection → Prop
  | star (source : Star) : Bindable (.star source) (.star source)
  | column (e : Expr) (name : Option String) (bound : Bound) :
      Bindable (.column e name) (.value bound)

theorem bindable_of_bindItem {names : Names} {item : SelectItem} {projection : Projection}
    {count count' : Nat} (h : (bindItem names item).run count = .ok (projection, count')) :
    Bindable item projection := by
  cases item with
  | star source =>
    rw [bindItem] at h
    split at h
    · cases h
    · cases h
      exact .star source
  | column e name =>
    obtain ⟨bound, _, -, h⟩ := run_bind_eq_ok_iff.mp h
    cases h
    exact .column e name bound

theorem forall_bindable_of_mapM {names : Names} {items : List SelectItem}
    {projections : List Projection} {count count' : Nat}
    (h : (items.mapM (bindItem names)).run count = .ok (projections, count')) :
    List.Forall₂ Bindable items projections :=
  forall₂_of_run_mapM (fun _ _ _ _ => bindable_of_bindItem) h

/-! ## Names -/

/-- Numbers of fields of an input record and of its partner that go with the columns. -/
structure Fits (columns : QueryColumns) (fields partnerFields : Nat) : Prop where
  input : ∀ names, columns.input.header = some names → fields = names.length
  join : ∀ names, columns.join.bind ColumnMap.header = some names → partnerFields = names.length
  alone : columns.join = none → partnerFields = 0

section

variable {columns : QueryColumns} {fields partnerFields : Nat}
  (hfits : Fits columns fields partnerFields)

include hfits

theorem length_starHeader {source : Star} {before names : List String}
    (h : itemHeader? columns before (.star source, .star source) = some names) :
    names.length = source.width none fields partnerFields := by
  cases source with
  | all =>
    cases hjoined : columns.join with
    | none =>
      obtain ⟨inputNames, hinput, rfl⟩ : ∃ inputNames, columns.input.header = some inputNames ∧
          inputNames = names := by
        simpa [itemHeader?, hjoined] using h
      rw [Star.width, hfits.input inputNames hinput, hfits.alone hjoined]
      rfl
    | some table =>
      obtain ⟨inputNames, hinput, joinNames, hjoin, rfl⟩ : ∃ inputNames,
          columns.input.header = some inputNames ∧ ∃ joinNames, table.header = some joinNames ∧
            inputNames ++ joinNames = names := by
        simpa [itemHeader?, hjoined, Option.bind_eq_some_iff] using h
      rw [List.length_append, Star.width, hfits.input inputNames hinput,
        hfits.join joinNames (by rw [hjoined]; exact hjoin)]
  | input =>
    have hinput : columns.input.header = some names := by
      simpa [itemHeader?] using h
    exact (hfits.input names hinput).symm
  | join =>
    have hjoin : columns.join.bind ColumnMap.header = some names := by
      simpa [itemHeader?] using h
    exact (hfits.join names hjoin).symm

theorem length_itemHeader? {item : SelectItem} {projection : Projection}
    (hitem : Bindable item projection) {before names : List String}
    (h : itemHeader? columns before (item, projection) = some names) :
    names.length = projection.width none fields partnerFields := by
  cases hitem with
  | star source => exact length_starHeader hfits h
  | column e name bound =>
    cases name with
    | some name =>
      cases h
      rfl
    | none =>
      cases bound <;> cases h <;> rfl

theorem length_foldlM_itemHeader? {items : List SelectItem} {projections : List Projection}
    (hitems : List.Forall₂ Bindable items projections) {before names : List String}
    (h : (items.zip projections).foldlM
      (fun header item => (itemHeader? columns header item).map (header ++ ·)) before =
        some names) :
    names.length = before.length + selectWidth none projections fields partnerFields := by
  induction hitems generalizing before with
  | nil =>
    cases h
    rfl
  | cons hitem _ ih =>
    rw [List.zip_cons_cons, List.foldlM_cons] at h
    obtain ⟨header, hheader, h⟩ := Option.bind_eq_some_iff.mp h
    obtain ⟨added, hadded, rfl⟩ := Option.map_eq_some_iff.mp hheader
    rw [ih h, List.length_append, length_itemHeader? hfits hitem hadded, selectWidth_cons,
      Nat.add_assoc]

theorem length_selectHeader? {items : List SelectItem} {projections : List Projection}
    (hitems : List.Forall₂ Bindable items projections) {distinct : Distinct}
    {names : List String}
    (h : selectHeader? columns distinct (items.zip projections) = some names) :
    names.length =
      selectWidth none projections fields partnerFields + if distinct = .counted then 1 else 0 := by
  unfold selectHeader? at h
  dsimp only at h
  split at h
  · rw [length_foldlM_itemHeader? hfits hitems h, Nat.add_comm]
    split <;> rfl
  · cases h

theorem length_header_of_readExclusion {query : IsolatedQuery} {names : Names}
    {select exclusion : List Char} {items : List Projection} {excluded : Option (List Nat)}
    {header : List String} {count count' : Nat}
    (h : (readExclusion query columns names select exclusion).run count =
      .ok ((.select items, excluded, some header), count')) :
    excluded.isSome ∧ header.length = selectWidth excluded items fields partnerFields := by
  unfold readExclusion at h
  split at h
  · cases h
  · obtain ⟨indices, _, -, h⟩ := run_bind_eq_ok_iff.mp h
    obtain ⟨hbody, -⟩ := Prod.mk.inj (Except.ok.inj h)
    obtain ⟨hitems, rfl, hheader⟩ : [.star .input] = items ∧ some indices = excluded ∧
        columns.input.header.map (without indices) = some header := by
      simpa using hbody
    obtain ⟨inputNames, hinput, rfl⟩ := Option.map_eq_some_iff.mp hheader
    refine ⟨rfl, ?_⟩
    rw [length_without, ← hfits.input inputNames hinput, ← hitems]
    rfl

theorem length_header_of_readItems {query : IsolatedQuery} {names : Names}
    {select : SelectClause} {items : List Projection} {exclusion : Option (List Nat)}
    {header : List String} {count count' : Nat}
    (h : (readItems query columns names select).run count =
      .ok ((.select items, exclusion, some header), count')) :
    header.length = selectWidth exclusion items fields partnerFields +
      if select.distinct = .counted then 1 else 0 := by
  obtain ⟨parsed, _, -, h⟩ := run_bind_eq_ok_iff.mp h
  obtain ⟨projections, _, hprojections, h⟩ := run_bind_eq_ok_iff.mp h
  obtain ⟨hbody, -⟩ := Prod.mk.inj (Except.ok.inj h)
  obtain ⟨rfl, rfl, hheader⟩ : projections = items ∧ none = exclusion ∧
      selectHeader? columns select.distinct (parsed.zip projections) = some header := by
    simpa using hbody
  exact length_selectHeader? hfits (forall_bindable_of_mapM hprojections) hheader

/-- The header of a statement has a name for each field of its rows. -/
theorem length_header_of_readBody {query : IsolatedQuery} {names : Names} {clauses : Clauses}
    {items : List Projection} {exclusion : Option (List Nat)} {header : List String}
    {count count' : Nat}
    (h : (readBody query columns names clauses).run count =
      .ok ((.select items, exclusion, some header), count'))
    (hcounted : exclusion = none ∨
      (clauses.select.map SelectClause.distinct).getD .no ≠ .counted) :
    header.length = selectWidth exclusion items fields partnerFields +
      if (clauses.select.map SelectClause.distinct).getD .no = .counted then 1 else 0 := by
  unfold readBody at h
  split at h
  · -- The names of an exclusion are those of the input, without the name of the counts.
    obtain ⟨hexclusion, hlength⟩ := length_header_of_readExclusion hfits h
    have hcounted' := hcounted.resolve_left fun hnone => by simp [hnone] at hexclusion
    rw [hlength, if_neg hcounted', Nat.add_zero]
  · next select _ hselect _ =>
    have hlength := length_header_of_readItems hfits h
    rwa [hselect]
  · obtain ⟨assignments, _, -, h⟩ := run_bind_eq_ok_iff.mp h
    cases h
  · cases h

end

/-! ## Plans -/

theorem isSome_of_readJoin {query : IsolatedQuery} {names : Names} {clause : Option JoinClause}
    {spec : Option JoinSpec} {count count' : Nat}
    (h : (readJoin query names clause).run count = .ok (spec, count')) :
    spec.isSome = clause.isSome := by
  cases clause with
  | none =>
    cases h
    rfl
  | some clause =>
    obtain ⟨spec, _, -, h⟩ := run_bind_eq_ok_iff.mp h
    cases h
    rfl

/-- The columns of the join table are those that are given, in a query that joins. -/
theorem eq_of_visibleColumns {clauses : Clauses} {input : ColumnMap} {join : Option ColumnMap}
    {columns : QueryColumns} (h : visibleColumns clauses input join = .ok columns) :
    columns = ⟨input, if clauses.join.isSome then join else none⟩ := by
  unfold visibleColumns at h
  split at h
  · next hjoin =>
    cases h
    simp [hjoin]
  · cases h
  · next hjoin =>
    obtain ⟨_, -, h⟩ := bind_eq_ok_iff.mp h
    cases h
    simp [hjoin]

/-- The columns that a plan is made for, those of the join table only in a query that
joins. -/
def columnsFor (plan : Plan) (input : ColumnMap) (join : Option ColumnMap) : QueryColumns :=
  ⟨input, if plan.join.isSome then join else none⟩

/-- Whether a plan leaves out fields of rows that it counts: its header does not name the
counts. -/
def countsUnnamed (plan : Plan) : Bool :=
  plan.exclusion.isSome && plan.distinct = .counted

/-- The number of fields of the records that a plan for a select list puts out. -/
def outputWidth (plan : Plan) (items : List Projection) (fields partnerFields : Nat) : Nat :=
  selectWidth plan.exclusion items fields partnerFields +
    if plan.distinct = .counted then 1 else 0

/-- The header of a plan has a name for each field of the records that it puts out. -/
theorem length_header {query : List Char} {input : ColumnMap} {join : Option ColumnMap}
    {scope : Scope} {plan : Plan} (h : ofQuery query input join scope = .ok plan)
    {items : List Projection} (hstatement : plan.statement = .select items)
    {header : List String} (hheader : plan.header = some header)
    (hcounted : plan.countsUnnamed = false) {fields partnerFields : Nat}
    (hfits : Fits (plan.columnsFor input join) fields partnerFields) :
    header.length = plan.outputWidth items fields partnerFields := by
  obtain ⟨isolated, clauses, columns, -, -, hcolumns, hread⟩ := exists_isReadOff_of_ofQuery h
  obtain ⟨_, hbody⟩ := hread.body
  obtain ⟨_, _, hjoin⟩ := hread.join
  rw [columnsFor, isSome_of_readJoin hjoin, ← eq_of_visibleColumns hcolumns] at hfits
  rw [hstatement, hheader] at hbody
  rw [outputWidth, hread.distinct]
  refine length_header_of_readBody hfits hbody ?_
  rw [← hread.distinct]
  simpa [countsUnnamed, or_iff_not_imp_left, Option.isSome_iff_ne_none] using hcounted

end Plan
end TableQuery
