import TableQuery.Proofs.Keyed
import TableQuery.Proofs.Query.Header
import TableQuery.Run.Projection

/-!
# The number of fields of rows

A row gets as many fields as its select list has for the records that it is made of, whether
it is unfolded, ordered or put into a group.  A group has a column for each of them, and its
record a field for each column.
-/

namespace TableQuery

/-! ## Rows -/

namespace Plan

variable {plan : Plan} {row : Row}

theorem length_starFields (plan : Plan) (row : Row) (source : Star) :
    (plan.starFields row source).length =
      source.width plan.exclusion row.fields.length row.partnerFields.length := by
  cases source with
  | all => exact List.length_append
  | input =>
    unfold starFields Star.width
    cases plan.exclusion with
    | none => rfl
    | some excluded => exact length_without excluded row.fields
  | join => rfl

theorem length_project {projected projected' : Projected} {item : Projection}
    (h : plan.project row projected item = .ok projected') :
    projected'.fields.length = projected.fields.length +
      item.width plan.exclusion row.fields.length row.partnerFields.length := by
  unfold project at h
  split at h
  · cases h
    rw [List.length_append, length_starFields]
    rfl
  · split at h
    · cases h
    · obtain ⟨v, -, h⟩ := bind_eq_ok_iff.mp h
      split at h
      · cases h
        exact List.length_append
      · cases h
  · obtain ⟨v, -, h⟩ := bind_eq_ok_iff.mp h
    cases h
    exact List.length_append

theorem length_foldlM_project {items : List Projection} {projected projected' : Projected}
    (h : items.foldlM (plan.project row) projected = .ok projected') :
    projected'.fields.length = projected.fields.length +
      selectWidth plan.exclusion items row.fields.length row.partnerFields.length := by
  induction items generalizing projected with
  | nil =>
    cases h
    rfl
  | cons item items ih =>
    rw [List.foldlM_cons] at h
    obtain ⟨next, hnext, h⟩ := bind_eq_ok_iff.mp h
    rw [ih h, length_project hnext, selectWidth_cons, Nat.add_assoc]

/-- Unfolding a list into rows changes no number of fields. -/
theorem length_of_mem_records {projected : Projected} {record : Record}
    (h : record ∈ projected.records) : record.length = projected.fields.length := by
  unfold Projected.records at h
  split at h
  · rw [List.mem_singleton.mp h]
  · obtain ⟨item, -, rfl⟩ := List.mem_map.mp h
    exact List.length_set

theorem length_groupInputs {item : Projection} {inputs : List GroupInput}
    (h : plan.groupInputs row item = .ok inputs) :
    inputs.length = item.width plan.exclusion row.fields.length row.partnerFields.length := by
  unfold groupInputs at h
  split at h
  · cases h
    rw [List.length_map, length_starFields]
    rfl
  · obtain ⟨v, -, h⟩ := bind_eq_ok_iff.mp h
    cases h
    rfl
  · cases h
  · obtain ⟨v, -, h⟩ := bind_eq_ok_iff.mp h
    cases h
    rfl

theorem length_mapM_groupInputs {items : List Projection} {cells : List (List GroupInput)}
    (h : items.mapM (plan.groupInputs row) = .ok cells) :
    cells.flatten.length =
      selectWidth plan.exclusion items row.fields.length row.partnerFields.length := by
  induction items generalizing cells with
  | nil =>
    cases h
    rfl
  | cons item items ih =>
    rw [List.mapM_cons] at h
    obtain ⟨first, hfirst, h⟩ := bind_eq_ok_iff.mp h
    obtain ⟨others, hothers, h⟩ := bind_eq_ok_iff.mp h
    cases h
    rw [List.flatten_cons, List.length_append, length_groupInputs hfirst, ih hothers,
      selectWidth_cons]

end Plan

/-- A row with the given number of fields, or of cells for its group. -/
def OutputRow.IsWide (n : Nat) : OutputRow → Prop
  | plain record => record.length = n
  | keyed _ record => record.length = n
  | grouped row => row.cells.length = n

theorem OutputRow.IsWide.length_record {n : Nat} {row : OutputRow} (h : row.IsWide n)
    {record : Record} (hrecord : row.record = .ok record) : record.length = n := by
  cases row with
  | plain | keyed =>
    cases hrecord
    exact h
  | grouped => cases hrecord

namespace Plan

theorem isWide_outputRows {plan : Plan} {items : List Projection} {row : Row}
    {rows : List OutputRow} (h : plan.outputRows items row = .ok rows) :
    ∀ output ∈ rows, output.IsWide
      (selectWidth plan.exclusion items row.fields.length row.partnerFields.length) := by
  obtain ⟨projected, hprojected, h⟩ := bind_eq_ok_iff.mp h
  have hlength := length_foldlM_project hprojected
  rw [List.length_nil, Nat.zero_add] at hlength
  have hrecords : ∀ record ∈ projected.records, record.length =
      selectWidth plan.exclusion items row.fields.length row.partnerFields.length :=
    fun record hrecord => (length_of_mem_records hrecord).trans hlength
  split at h
  · cases h
    exact List.forall_mem_map.mpr hrecords
  · obtain ⟨key, -, h⟩ := bind_eq_ok_iff.mp h
    cases h
    exact List.forall_mem_map.mpr hrecords

/-- The rows that an input record and a partner add to the output have the fields that the
select list asks for. -/
theorem isWide_rowsOf {plan : Plan} {items : List Projection} {row : Row}
    {rows : List OutputRow} (h : plan.rowsOf items row = .ok rows) :
    ∀ output ∈ rows, output.IsWide
      (selectWidth plan.exclusion items row.fields.length row.partnerFields.length) := by
  obtain ⟨selected, -, h⟩ := bind_eq_ok_iff.mp h
  split at h
  · split at h
    · obtain ⟨group, hgroup, h⟩ := bind_eq_ok_iff.mp h
      obtain ⟨cells, hcells, hgroup⟩ := bind_eq_ok_iff.mp hgroup
      obtain ⟨key, -, hgroup⟩ := bind_eq_ok_iff.mp hgroup
      cases hgroup
      cases h
      exact List.forall_mem_singleton.mpr (length_mapM_groupInputs hcells)
    · exact isWide_outputRows h
  · cases h
    exact nofun

end Plan

/-! ## Groups -/

namespace Groups

variable {n : Nat} {groups : Groups}

/-- Groups with the given number of columns. -/
structure IsWide (n : Nat) (groups : Groups) : Prop where
  started : groups.columns = none → groups.cells = []
  columns : ∀ columns, groups.columns = some columns → columns.length = n
  cells : ∀ entry ∈ groups.cells, entry.2.length = n

theorem isWide_empty (n : Nat) : empty.IsWide n :=
  ⟨fun _ => rfl, nofun, nofun⟩

theorem length_feedCells (row : GroupRow) (column : Nat) (cells : List GroupCell)
    (inputs : List GroupInput) : (feedCells row column cells inputs).2.length = cells.length := by
  induction cells generalizing column inputs with
  | nil => rfl
  | cons cell cells ih =>
    cases inputs with
    | nil => rfl
    | cons input inputs =>
      rw [feedCells]
      split
      · rfl
      · exact congrArg (· + 1) (ih _ _)

theorem IsWide.feed [Hashing] (h : groups.IsWide n) {row : GroupRow} (hrow : row.cells.length = n) :
    (groups.feed row).2.IsWide n := by
  have hcolumns : (groups.columns.getD (row.cells.map GroupInput.column)).length = n := by
    cases hknown : groups.columns with
    | none => rw [Option.getD_none, List.length_map, hrow]
    | some columns => exact h.columns columns hknown
  unfold Groups.feed
  -- The columns of the first row are those of all rows, and no row differs from them.
  generalize groups.columns.getD (row.cells.map GroupInput.column) = columns at hcolumns
  have hstart : ((groups.cells.find? row.key).getD
      (List.zipWith GroupCell.start columns row.cells)).length = n := by
    cases hfind : groups.cells.find? row.key with
    | none => rw [Option.getD_none, List.length_zipWith, hcolumns, hrow, Nat.min_self]
    | some cells =>
      obtain ⟨key, hmem⟩ := Keyed.exists_mem_of_find? hfind
      exact h.cells _ hmem
  rw [feedRow, if_neg (by rw [hcolumns, hrow]; exact fun hne => hne rfl)]
  refine ⟨nofun, fun known hknown => Option.some.inj hknown ▸ hcolumns, ?_⟩
  have hfed := (length_feedCells row 1 _ row.cells).trans hstart
  exact Keyed.forall_mem_alter (fun _ => _) hfed (fun _ _ _ => hfed) h.cells

theorem length_finishCells {key : List Value} {columns : List GroupColumn}
    {cells : List GroupCell} {record : Record} (h : finishCells key columns cells = .ok record)
    (hlength : columns.length = cells.length) : record.length = cells.length := by
  induction columns generalizing cells record with
  | nil =>
    obtain rfl : cells = [] := List.length_eq_zero_iff.mp hlength.symm
    cases h
    rfl
  | cons column columns ih =>
    cases cells with
    | nil => cases hlength
    | cons cell cells =>
      rw [finishCells] at h
      obtain ⟨v, -, h⟩ := bind_eq_ok_iff.mp h
      obtain ⟨rest, hrest, h⟩ := bind_eq_ok_iff.mp h
      cases h
      exact congrArg (· + 1) (ih hrest (Nat.succ.inj hlength))

/-- The record of a group has a field for each column. -/
theorem IsWide.finish (h : groups.IsWide n) {records : List Record}
    (hfinish : groups.finish = .ok records) : ∀ record ∈ records, record.length = n := by
  obtain ⟨table, hentries, rfl, htable⟩ := exists_zip_of_mapM_eq_ok hfinish
  refine List.forall_mem_map.mpr fun entry hentry => ?_
  have hsorted : entry.1 ∈ groups.sorted := hentries ▸ List.mem_map_of_mem hentry
  have hmem : entry.1 ∈ groups.cells := List.mem_mergeSort.mp hsorted
  have hcells := h.cells _ hmem
  have hcolumns : (groups.columns.getD []).length = n := by
    cases hknown : groups.columns with
    | none =>
      rw [h.started hknown] at hmem
      cases hmem
    | some columns => exact h.columns columns hknown
  exact (length_finishCells (htable entry hentry) (hcolumns.trans hcells.symm)).trans hcells

end Groups

end TableQuery
