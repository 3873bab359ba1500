import TableQuery.Aggregate.Groups
import TableQuery.Proofs.Except
import TableQuery.Proofs.Keyed
import TableQuery.Proofs.Sorting

/-!
# Groups as parts of the rows

The groups are filled row by row, whatever the order in which rows of different groups
arrive.  The invariant is that each group holds, column by column, what its own rows make
of a fresh cell.  A row is refused at its first cell that does not go together with the
rows of its group before it.
-/

namespace TableQuery
namespace Groups

open Value

/-- Takes rows one after the other, until one is refused. -/
def feedAll [Hashing] (groups : Groups) : List GroupRow → Except DataFault Unit × Groups
  | [] => (.ok (), groups)
  | row :: rows =>
    match groups.feed row with
    | (.ok _, groups) => feedAll groups rows
    | (.error fault, groups) => (.error fault, groups)

/-! ## What the rows of a group come to -/

/-- The rows with the given key, in the order in which they arrived. -/
def members (key : List Value) (rows : List GroupRow) : List GroupRow :=
  rows.filter fun row => row.key = key

/-- The values of a column in some rows. -/
def columnValues (column : Nat) (rows : List GroupRow) : List Value :=
  rows.filterMap fun row => row.cells[column]?.map GroupInput.value

/-- What a function remembers of some values.  Absent values are passed over by every
function but the count. -/
def accumulate (f : Aggregate) (values : List Value) : Except EvalError Accumulator :=
  (values.filter fun v => f = .count ∨ v ≠ .null).foldlM (fun acc v => acc.feed v) (.start f)

/-- Why a cell is refused, if it is, after the earlier rows of its group: a plain value
differs from the first one of the group, or an accumulator does not take a value. -/
def refusal? (earlier : List GroupRow) (row : GroupRow) (column : Nat) :
    GroupInput → Option DataFault
  | .plain v =>
    match earlier.head?.bind fun first => first.cells[column]? with
    | some first =>
      if first.value = v then none
      else some (.varyingColumn (shownKey row.key) (column + 1) row.record)
    | none => none
  | .aggregate f _ _ =>
    match accumulate f (columnValues column (earlier ++ [row])) with
    | .ok _ => none
    | .error e => some (.atRecord row.record e)

/-- Why a row is refused, if it is, after the earlier rows of its group: the reason of its
leftmost cell that is refused. -/
def rowRefusal? (earlier : List GroupRow) (row : GroupRow) : Option DataFault :=
  row.cells.zipIdx.findSome? fun p => refusal? earlier row p.2 p.1

/-- Why the first row that is refused, after some other rows, is refused. -/
def firstRefusal? (before : List GroupRow) : List GroupRow → Option DataFault
  | [] => none
  | row :: rows =>
    match rowRefusal? (members row.key before) row with
    | some fault => some fault
    | none => firstRefusal? (before ++ [row]) rows

/-- A row of the given columns, whose key and plain cells hold no doubles. -/
structure Uniform (columns : List GroupColumn) (row : GroupRow) : Prop where
  columns_eq : row.cells.map GroupInput.column = columns
  key_floatFree : areFloatFree row.key
  plain_floatFree : ∀ v, GroupInput.plain v ∈ row.cells → v.isFloatFree

/-- What the output of a column is for the rows of a group. -/
def IsColumnValue (rows : List GroupRow) (column : Nat) : GroupColumn → Value → Prop
  | .plain, v => ∀ row ∈ rows, row.cells[column]? = some (.plain v)
  | .aggregate f none, v =>
    ∃ acc, accumulate f (columnValues column rows) = .ok acc ∧ acc.result = v
  | .aggregate f (some post), v =>
    ∃ acc, accumulate f (columnValues column rows) = .ok acc ∧
      post.apply Row.empty [acc.result] = .ok v

/-- The record of a group with the given rows. -/
structure IsGroupRecord (columns : List GroupColumn) (rows : List GroupRow)
    (record : Record) : Prop where
  length_eq : record.length = columns.length
  isColumnValue : ∀ j column v, columns[j]? = some column → record[j]? = some v →
    IsColumnValue rows j column v

/-- One record for each key among the rows, in strictly ascending order of the keys. -/
def AreGroupRecords (columns : List GroupColumn) (rows : List GroupRow)
    (records : List Record) : Prop :=
  ∃ table : List (List Value × Record), table.map Prod.snd = records ∧
    table.Pairwise (fun a b => cmpList a.1 b.1 = .lt) ∧
    (∀ key, (∃ record, (key, record) ∈ table) ↔ ∃ row ∈ rows, row.key = key) ∧
    ∀ key record, (key, record) ∈ table → IsGroupRecord columns (members key rows) record

/-! ## Cells -/

/-- What a group holds for a column after some rows. -/
def CellHolds (rows : List GroupRow) (column : Nat) : GroupColumn → GroupCell → Prop
  | .plain, .plain v => ∀ row ∈ rows, row.cells[column]? = some (.plain v)
  | .aggregate f _, .aggregate acc => accumulate f (columnValues column rows) = .ok acc
  | _, _ => False

theorem columnValues_append_singleton {column : Nat} {row : GroupRow} {input : GroupInput}
    (hinput : row.cells[column]? = some input) (rows : List GroupRow) :
    columnValues column (rows ++ [row]) = columnValues column rows ++ [input.value] := by
  simp [columnValues, List.filterMap_append, hinput]

theorem skips_eq_false_iff (f : Aggregate) (v : Value) :
    (f.skipsNull && v.isNull) = false ↔ f = .count ∨ v ≠ .null := by
  cases v <;> simp [Aggregate.skipsNull, Value.isNull]

/-- One more value is passed over or fed to the accumulator. -/
theorem accumulate_append_singleton {f : Aggregate} {values : List Value} {acc : Accumulator}
    (hacc : accumulate f values = .ok acc) (v : Value) :
    accumulate f (values ++ [v]) =
      if f.skipsNull && v.isNull then .ok acc else acc.feed v := by
  unfold accumulate at hacc ⊢
  rw [List.filter_append, List.foldlM_append, hacc]
  cases hskip : f.skipsNull && v.isNull with
  | true =>
    have hv : ¬(f = .count ∨ v ≠ .null) := by
      rw [← skips_eq_false_iff, hskip]
      simp
    rw [List.filter_cons_of_neg (by simpa using hv)]
    rfl
  | false =>
    have hv := (skips_eq_false_iff f v).mp hskip
    rw [List.filter_cons_of_pos (by simpa using hv)]
    exact bind_pure (acc.feed v)

/-- A value that is grouped as it is has to be that of the first row of the group. -/
theorem feedCell_plain_spec {rows : List GroupRow} {row : GroupRow} {column : Nat}
    {v first : Value} (hinput : row.cells[column]? = some (.plain v))
    (hholds : CellHolds rows column (GroupInput.plain v).column (.plain first))
    (hstart : rows = [] → first = v)
    (hfree : ∀ r ∈ rows ++ [row], ∀ v, GroupInput.plain v ∈ r.cells → v.isFloatFree) :
    match feedCell row (column + 1) (.plain first) (.plain v) with
    | .ok cell => refusal? rows row column (.plain v) = none ∧
        CellHolds (rows ++ [row]) column (GroupInput.plain v).column cell
    | .error fault => refusal? rows row column (.plain v) = some fault := by
  have hv : v.isFloatFree := hfree row (by simp) v (List.mem_of_getElem? hinput)
  cases rows with
  | nil =>
    obtain rfl := hstart rfl
    have hsame : first.same first = true := (same_iff hv hv).mpr rfl
    simp [feedCell, hsame, refusal?, GroupInput.column, CellHolds, hinput]
  | cons r rows =>
    have hr : r.cells[column]? = some (.plain first) := hholds r List.mem_cons_self
    have hfirst : first.isFloatFree := hfree r (by simp) first (List.mem_of_getElem? hr)
    by_cases heq : first = v
    · subst heq
      have hsame : first.same first = true := (same_iff hfirst hfirst).mpr rfl
      have hall := hholds
      simp only [GroupInput.column, CellHolds] at hall
      simp only [feedCell, hsame, if_true, refusal?, List.head?_cons, Option.bind_some, hr,
        GroupInput.value, true_and]
      intro other hother
      rcases List.mem_append.mp hother with hother | hother
      · exact hall other hother
      · rwa [List.mem_singleton.mp hother]
    · have hsame : ¬first.same v = true := mt (same_iff hfirst hv).mp heq
      simp [feedCell, hsame, refusal?, hr, GroupInput.value, heq]

/-- A value that is aggregated has to be taken by its accumulator. -/
theorem feedCell_aggregate_spec {rows : List GroupRow} {row : GroupRow} {column : Nat}
    {f : Aggregate} {post : Option Lambda} {v : Value} {acc : Accumulator}
    (hinput : row.cells[column]? = some (.aggregate f post v))
    (hholds : CellHolds rows column (GroupInput.aggregate f post v).column (.aggregate acc)) :
    match feedCell row (column + 1) (.aggregate acc) (.aggregate f post v) with
    | .ok cell => refusal? rows row column (.aggregate f post v) = none ∧
        CellHolds (rows ++ [row]) column (GroupInput.aggregate f post v).column cell
    | .error fault => refusal? rows row column (.aggregate f post v) = some fault := by
  have hacc : accumulate f (columnValues column rows) = .ok acc := hholds
  have hnext : accumulate f (columnValues column (rows ++ [row])) =
      if f.skipsNull && v.isNull then .ok acc else acc.feed v := by
    rw [columnValues_append_singleton hinput]
    exact accumulate_append_singleton hacc v
  cases hskip : f.skipsNull && v.isNull with
  | true => simp [feedCell, refusal?, hnext, hskip, GroupInput.column, CellHolds]
  | false =>
    cases hfeed : acc.feed v <;>
      simp [feedCell, refusal?, hnext, hskip, hfeed, GroupInput.column, CellHolds, Except.map]

/-- A cell is refused for the reason given, or it is taken and holds its column. -/
theorem feedCell_spec {rows : List GroupRow} {row : GroupRow} {column : Nat}
    {input : GroupInput} {cell : GroupCell} (hinput : row.cells[column]? = some input)
    (hholds : CellHolds rows column input.column cell)
    (hstart : rows = [] → cell = GroupCell.start input.column input)
    (hfree : ∀ r ∈ rows ++ [row], ∀ v, GroupInput.plain v ∈ r.cells → v.isFloatFree) :
    match feedCell row (column + 1) cell input with
    | .ok cell => refusal? rows row column input = none ∧
        CellHolds (rows ++ [row]) column input.column cell
    | .error fault => refusal? rows row column input = some fault := by
  cases input with
  | plain v =>
    cases cell with
    | aggregate acc => exact hholds.elim
    | plain first =>
      exact feedCell_plain_spec hinput hholds (fun hnil => GroupCell.plain.inj (hstart hnil)) hfree
  | aggregate f post v =>
    cases cell with
    | plain first => exact hholds.elim
    | aggregate acc => exact feedCell_aggregate_spec hinput hholds

/-! ## Rows -/

/-- The cells of a row are taken one by one up to the first one that is refused. -/
theorem feedCells_spec (row : GroupRow) (refuse : GroupInput × Nat → Option DataFault)
    (good : Nat → GroupCell → Prop) (cells : List GroupCell) (inputs : List GroupInput)
    (n : Nat) (hlength : cells.length = inputs.length)
    (hcell : ∀ j cell input, cells[j]? = some cell → inputs[j]? = some input →
      match feedCell row (n + j + 1) cell input with
      | .ok cell => refuse (input, n + j) = none ∧ good (n + j) cell
      | .error fault => refuse (input, n + j) = some fault) :
    match feedCells row (n + 1) cells inputs with
    | (.ok _, cells') => (inputs.zipIdx n).findSome? refuse = none ∧
        cells'.length = cells.length ∧ ∀ j cell, cells'[j]? = some cell → good (n + j) cell
    | (.error fault, _) => (inputs.zipIdx n).findSome? refuse = some fault := by
  induction cells generalizing inputs n with
  | nil =>
    obtain rfl : inputs = [] := List.length_eq_zero_iff.mp hlength.symm
    simp [feedCells]
  | cons cell cells ih =>
    cases inputs with
    | nil => simp at hlength
    | cons input inputs =>
      have hfirst := hcell 0 cell input rfl rfl
      have hrest := ih inputs (n + 1) (by simpa using hlength) fun j cell input hj hj' => by
        have := hcell (j + 1) cell input hj hj'
        rwa [← Nat.add_assoc, Nat.add_right_comm n j 1] at this
      rw [feedCells, List.zipIdx_cons, List.findSome?_cons]
      cases hfeed : feedCell row (n + 1) cell input with
      | error fault =>
        simp only [Nat.add_zero, hfeed] at hfirst
        simp [hfirst]
      | ok cell' =>
        simp only [Nat.add_zero, hfeed] at hfirst
        rw [hfirst.1]
        rcases hcells : feedCells row (n + 1 + 1) cells inputs with ⟨_ | _, cells'⟩
        · simpa [hcells] using hrest
        · simp only [hcells] at hrest
          refine ⟨hrest.1, by simp [hrest.2.1], ?_⟩
          intro j other hj
          cases j with
          | zero =>
            obtain rfl : cell' = other := by simpa using hj
            exact hfirst.2
          | succ j =>
            have := hrest.2.2 j other (by simpa using hj)
            rwa [Nat.add_right_comm, Nat.add_assoc n j 1] at this

/-- What a group holds after some rows. -/
structure CellsHold (columns : List GroupColumn) (rows : List GroupRow)
    (cells : List GroupCell) : Prop where
  length_eq : cells.length = columns.length
  holds : ∀ j column cell, columns[j]? = some column → cells[j]? = some cell →
    CellHolds rows j column cell

/-- A row goes into a group, or is refused at its leftmost cell that does not fit. -/
theorem feedCells_members {columns : List GroupColumn} {rows : List GroupRow}
    {row : GroupRow} {cells : List GroupCell} (hrow : Uniform columns row)
    (hrows : ∀ r ∈ rows, Uniform columns r) (hcells : CellsHold columns rows cells)
    (hstart : rows = [] → cells = List.zipWith GroupCell.start columns row.cells) :
    match feedCells row 1 cells row.cells with
    | (.ok _, cells) => rowRefusal? rows row = none ∧ CellsHold columns (rows ++ [row]) cells
    | (.error fault, _) => rowRefusal? rows row = some fault := by
  have hlength : row.cells.length = columns.length := by
    rw [← hrow.columns_eq, List.length_map]
  have hcolumn : ∀ (j : Nat) (input : GroupInput), row.cells[j]? = some input →
      columns[j]? = some input.column := by
    intro j input hj
    rw [← hrow.columns_eq, List.getElem?_map, hj]
    rfl
  have hspec := feedCells_spec row (fun p => refusal? rows row p.2 p.1)
    (fun j cell => ∀ column, columns[j]? = some column →
      CellHolds (rows ++ [row]) j column cell)
    cells row.cells 0 (by rw [hcells.length_eq, hlength]) (by
      intro j cell input hj hj'
      have hcell := feedCell_spec hj' (hcells.holds j _ cell (hcolumn j input hj') hj) (by
          intro hnil
          rw [hstart hnil, List.getElem?_zipWith, hcolumn j input hj', hj'] at hj
          simpa using hj.symm) (by
          intro r hr v hv
          rcases List.mem_append.mp hr with hr | hr
          · exact (hrows r hr).plain_floatFree v hv
          · rw [List.mem_singleton.mp hr] at hv
            exact hrow.plain_floatFree v hv)
      rw [Nat.zero_add]
      split at hcell
      · refine ⟨hcell.1, fun column hc => ?_⟩
        rw [hcolumn j input hj'] at hc
        exact Option.some.inj hc ▸ hcell.2
      · exact hcell)
  rcases hfeed : feedCells row (0 + 1) cells row.cells with ⟨_ | _, cells'⟩
  · simpa [hfeed, rowRefusal?] using hspec
  · simp only [hfeed, Nat.zero_add] at hspec ⊢
    exact ⟨hspec.1, hspec.2.1.trans hcells.length_eq,
      fun j column cell hc hj => hspec.2.2 j cell hj column hc⟩

/-! ## Groups -/

theorem members_append_singleton (key : List Value) (rows : List GroupRow) (row : GroupRow) :
    members key (rows ++ [row]) = members key rows ++ if row.key = key then [row] else [] := by
  by_cases heq : row.key = key <;> simp [members, heq]

/-- A group that has no rows yet holds nothing but fresh cells. -/
theorem cellsHold_start {columns : List GroupColumn} {row : GroupRow}
    (hlength : row.cells.length = columns.length) :
    CellsHold columns [] (List.zipWith GroupCell.start columns row.cells) where
  length_eq := by simp [hlength]
  holds j column cell hcolumn hcell := by
    rw [List.getElem?_zipWith, hcolumn] at hcell
    cases hinput : row.cells[j]? with
    | none => simp [hinput] at hcell
    | some input =>
      obtain rfl : GroupCell.start column input = cell := by simpa [hinput] using hcell
      cases column with
      | plain => simp [GroupCell.start, CellHolds]
      | aggregate f post => rfl

section Filling

variable [Hashing]

/-- Groups that hold exactly what some rows come to: a group for each key among them. -/
structure Gathered (columns : List GroupColumn) (rows : List GroupRow) (groups : Groups) :
    Prop where
  columns_eq : groups.columns = if rows = [] then none else some columns
  lawful : groups.cells.Lawful
  find_eq_none : ∀ key, areFloatFree key → members key rows = [] →
    groups.cells.find? key = none
  exists_find : ∀ key, areFloatFree key → members key rows ≠ [] →
    ∃ cells, groups.cells.find? key = some cells ∧ CellsHold columns (members key rows) cells

theorem gathered_empty (columns : List GroupColumn) : Gathered columns [] empty where
  columns_eq := rfl
  lawful := Keyed.lawful_nil
  find_eq_none key _ _ := Keyed.find?_nil key
  exists_find _ _ h := absurd rfl h

/-- The group of a row, filled by the row, beside the other groups. -/
theorem Gathered.alter {columns : List GroupColumn} {rows : List GroupRow} {groups : Groups}
    (h : Gathered columns rows groups) {row : GroupRow} (hkey : areFloatFree row.key)
    {cells : List GroupCell}
    (hcells : CellsHold columns (members row.key rows ++ [row]) cells) :
    Gathered columns (rows ++ [row])
      ⟨some columns, groups.cells.alter row.key fun _ => cells⟩ where
  columns_eq := by simp
  lawful := h.lawful.alter hkey fun _ => cells
  find_eq_none key hfree hnil := by
    rw [members_append_singleton] at hnil
    obtain ⟨hnil, hne⟩ := List.append_eq_nil_iff.mp hnil
    have hne : row.key ≠ key := by
      intro heq
      simp [heq] at hne
    rw [Keyed.find?_alter_of_ne h.lawful hkey hfree hne]
    exact h.find_eq_none key hfree hnil
  exists_find key hfree hne := by
    rw [members_append_singleton] at hne ⊢
    by_cases heq : row.key = key
    · subst heq
      exact ⟨cells, Keyed.find?_alter_self h.lawful hkey fun _ => cells,
        by simpa using hcells⟩
    · rw [if_neg heq, List.append_nil] at hne ⊢
      rw [Keyed.find?_alter_of_ne h.lawful hkey hfree heq]
      exact h.exists_find key hfree hne

/-- A row is taken into its group, or refused for the reason given. -/
theorem Gathered.feed {columns : List GroupColumn} {rows : List GroupRow} {groups : Groups}
    (h : Gathered columns rows groups) (hrows : ∀ r ∈ rows, Uniform columns r)
    {row : GroupRow} (hrow : Uniform columns row) :
    match groups.feed row with
    | (.ok _, groups) => rowRefusal? (members row.key rows) row = none ∧
        Gathered columns (rows ++ [row]) groups
    | (.error fault, _) => rowRefusal? (members row.key rows) row = some fault := by
  have hlength : row.cells.length = columns.length := by
    rw [← hrow.columns_eq, List.length_map]
  have hcolumns : groups.columns.getD (row.cells.map GroupInput.column) = columns := by
    rw [h.columns_eq, hrow.columns_eq]
    split <;> rfl
  -- A new group holds what an old one would after no rows, so both take the row alike.
  obtain ⟨cells, hfound, hcells, hstart⟩ : ∃ cells,
      (groups.cells.find? row.key).getD (List.zipWith GroupCell.start columns row.cells) =
        cells ∧ CellsHold columns (members row.key rows) cells ∧
        (members row.key rows = [] → cells = List.zipWith GroupCell.start columns row.cells) := by
    by_cases hnil : members row.key rows = []
    · rw [h.find_eq_none row.key hrow.key_floatFree hnil, hnil]
      exact ⟨_, rfl, cellsHold_start hlength, fun _ => rfl⟩
    · obtain ⟨cells, hfind, hcells⟩ := h.exists_find row.key hrow.key_floatFree hnil
      rw [hfind]
      exact ⟨cells, rfl, hcells, fun hnil' => absurd hnil' hnil⟩
  have hspec := feedCells_members hrow
    (fun r hr => hrows r ((List.mem_filter.mp hr).1)) hcells hstart
  rw [Groups.feed, hcolumns, feedRow]
  simp only [hlength, ne_eq, not_true_eq_false, if_false, hfound]
  rcases hfeed : feedCells row 1 cells row.cells with ⟨_ | _, cells'⟩
  · simp only [hfeed] at hspec ⊢
    exact hspec
  · simp only [hfeed] at hspec ⊢
    exact ⟨hspec.1, h.alter hrow.key_floatFree hspec.2⟩

/-- Rows are taken up to the first one that is refused. -/
theorem Gathered.feedAll {columns : List GroupColumn} {before : List GroupRow}
    {groups : Groups} (h : Gathered columns before groups) (rows : List GroupRow)
    (hrows : ∀ r ∈ before ++ rows, Uniform columns r) :
    match groups.feedAll rows with
    | (.ok _, groups) => firstRefusal? before rows = none ∧
        Gathered columns (before ++ rows) groups
    | (.error fault, _) => firstRefusal? before rows = some fault := by
  induction rows generalizing before groups with
  | nil => simpa [Groups.feedAll, firstRefusal?] using h
  | cons row rows ih =>
    have hstep := h.feed (fun r hr => hrows r (List.mem_append_left _ hr))
      (hrows row (by simp))
    rw [Groups.feedAll, firstRefusal?]
    rcases hfeed : groups.feed row with ⟨_ | _, groups'⟩
    · simp only [hfeed] at hstep
      simp [hstep]
    · simp only [hfeed] at hstep
      have hrest := ih hstep.2 (by simpa using hrows)
      simpa [hstep.1] using hrest

end Filling

/-! ## Records -/

theorem finishCell_spec {key : List Value} {rows : List GroupRow} {j : Nat}
    {column : GroupColumn} {cell : GroupCell} {v : Value} (hholds : CellHolds rows j column cell)
    (hfinish : finishCell key column cell = .ok v) : IsColumnValue rows j column v := by
  cases column with
  | plain =>
    cases cell with
    | aggregate acc => exact hholds.elim
    | plain first => exact Except.ok.inj hfinish ▸ hholds
  | aggregate f post =>
    cases cell with
    | plain first => exact hholds.elim
    | aggregate acc =>
      cases post with
      | none => exact ⟨acc, hholds, Except.ok.inj hfinish⟩
      | some post =>
        refine ⟨acc, hholds, ?_⟩
        rw [finishCell] at hfinish
        cases happly : post.apply Row.empty [acc.result] with
        | error e => simp [happly] at hfinish
        | ok w => simpa [happly] using hfinish

/-- The output of a group holds the output of each of its columns. -/
theorem finishCells_spec {key : List Value} {columns : List GroupColumn}
    {cells : List GroupCell} {record : Record} (hlength : cells.length = columns.length)
    (hfinish : finishCells key columns cells = .ok record) :
    record.length = columns.length ∧
      ∀ (j : Nat) column cell v, columns[j]? = some column → cells[j]? = some cell →
        record[j]? = some v → finishCell key column cell = .ok v := by
  induction columns generalizing cells record with
  | nil =>
    cases hfinish
    simp
  | cons column columns ih =>
    cases cells with
    | nil => simp at hlength
    | cons cell cells =>
      rw [finishCells] at hfinish
      obtain ⟨v, hv, hfinish⟩ := bind_eq_ok_iff.mp hfinish
      obtain ⟨rest, hrest, hfinish⟩ := bind_eq_ok_iff.mp hfinish
      cases hfinish
      obtain ⟨hlength', hcells⟩ := ih (by simpa using hlength) hrest
      refine ⟨by simp [hlength'], ?_⟩
      intro j column' cell' v' hcolumn hcell hv'
      cases j with
      | zero =>
        cases hcolumn
        cases hcell
        cases hv'
        exact hv
      | succ j => exact hcells j column' cell' v' hcolumn hcell hv'

theorem CellsHold.isGroupRecord {columns : List GroupColumn} {rows : List GroupRow}
    {cells : List GroupCell} (h : CellsHold columns rows cells) {key : List Value}
    {record : Record} (hfinish : finishCells key columns cells = .ok record) :
    IsGroupRecord columns rows record := by
  obtain ⟨hlength, hcells⟩ := finishCells_spec h.length_eq hfinish
  refine ⟨hlength, ?_⟩
  intro j column v hcolumn hv
  have hj : j < cells.length := by
    rw [h.length_eq, ← hlength]
    exact (List.getElem?_eq_some_iff.mp hv).1
  have hcell : cells[j]? = some cells[j] := List.getElem?_eq_getElem hj
  exact finishCell_spec (h.holds j column _ hcolumn hcell) (hcells j column _ v hcolumn hcell hv)

/-- The groups are sorted by keys that are all different. -/
theorem pairwise_sorted {groups : Groups} (h : groups.cells.Lawful) :
    groups.sorted.Pairwise fun a b => cmpList a.1 b.1 = .lt := by
  have hfree : ∀ entry ∈ groups.cells, areFloatFree entry.1 :=
    fun entry hentry => h.floatFree entry.1 (List.mem_map_of_mem hentry)
  have hperm : groups.sorted.Perm groups.cells := List.mergeSort_perm _ _
  have hle : groups.sorted.Pairwise fun a b => cmpList a.1 b.1 != .gt := by
    refine pairwise_mergeSort_of_mem ?_ ?_
    · intro a ha b hb c hc hab hbc
      simp only [bne_iff_ne] at hab hbc ⊢
      exact cmpList_ne_gt_trans (hfree a ha) (hfree b hb) (hfree c hc) hab hbc
    · intro a ha b hb
      simpa using cmpList_ne_gt_total (hfree a ha) (hfree b hb)
  have hne : groups.sorted.Pairwise fun a b => a.1 ≠ b.1 :=
    List.pairwise_map.mp (h.perm hperm).nodup
  refine (hle.and hne).imp_of_mem ?_
  intro a b ha hb hab
  cases hcmp : cmpList a.1 b.1 with
  | lt => rfl
  | eq =>
    exact absurd (eq_of_cmpList_eq (hfree a (hperm.mem_iff.mp ha)) (hfree b (hperm.mem_iff.mp hb))
      hcmp) hab.2
  | gt => simp [hcmp] at hab

/-- The order in which groups are held makes no difference to what they come to. -/
theorem finish_eq_of_perm {groups : Groups} (h : groups.cells.Lawful)
    {cells : Keyed (List GroupCell)} (hperm : cells.Perm groups.cells) :
    finish ⟨groups.columns, cells⟩ = groups.finish := by
  have hsorted : sorted ⟨groups.columns, cells⟩ = groups.sorted := by
    refine List.Perm.eq_of_pairwise ?_ (pairwise_sorted (h.perm hperm)) (pairwise_sorted h) ?_
    · intro a b ha hb hab hba
      have ha : areFloatFree a.1 := (h.perm hperm).floatFree a.1
        (List.mem_map_of_mem ((List.mergeSort_perm _ _).mem_iff.mp ha))
      have hb : areFloatFree b.1 := h.floatFree b.1
        (List.mem_map_of_mem ((List.mergeSort_perm _ _).mem_iff.mp hb))
      have := cmpList_lt_trans ha hb ha hab hba
      simp [cmpList_self ha] at this
    · exact (List.mergeSort_perm _ _).trans (hperm.trans (List.mergeSort_perm _ _).symm)
  rw [finish, finish, hsorted]

section Records

variable [Hashing]

/-- There is a group for each key among the rows, and no other group. -/
theorem Gathered.mem_keys_iff {columns : List GroupColumn} {rows : List GroupRow}
    {groups : Groups} (h : Gathered columns rows groups)
    (hrows : ∀ row ∈ rows, Uniform columns row) (key : List Value) :
    key ∈ groups.cells.keys ↔ ∃ row ∈ rows, row.key = key := by
  have hmembers : members key rows ≠ [] ↔ ∃ row ∈ rows, row.key = key := by
    simp [members, List.filter_eq_nil_iff]
  rw [← hmembers]
  constructor
  · intro hkey hnil
    have hfree := h.lawful.floatFree key hkey
    rw [← Keyed.isSome_find?_iff h.lawful hfree, h.find_eq_none key hfree hnil] at hkey
    simp at hkey
  · intro hne
    obtain ⟨row, hrow, rfl⟩ := hmembers.mp hne
    have hfree := (hrows row hrow).key_floatFree
    obtain ⟨cells, hfind, -⟩ := h.exists_find row.key hfree hne
    rw [← Keyed.isSome_find?_iff h.lawful hfree, hfind]
    rfl

/-- The cells of a group hold what its rows come to. -/
theorem Gathered.cellsHold {columns : List GroupColumn} {rows : List GroupRow}
    {groups : Groups} (h : Gathered columns rows groups)
    (hrows : ∀ row ∈ rows, Uniform columns row) {key : List Value} {cells : List GroupCell}
    (hmem : (key, cells) ∈ groups.cells) : CellsHold columns (members key rows) cells := by
  have hkey : key ∈ groups.cells.keys := List.mem_map_of_mem hmem
  obtain ⟨row, hrow, rfl⟩ := (h.mem_keys_iff hrows key).mp hkey
  have hne : members row.key rows ≠ [] :=
    List.ne_nil_of_mem (List.mem_filter.mpr ⟨hrow, by simp⟩)
  obtain ⟨cells', hfind, hcells⟩ := h.exists_find row.key (h.lawful.floatFree _ hkey) hne
  rw [Keyed.find?_of_mem h.lawful hmem] at hfind
  exact Option.some.inj hfind ▸ hcells

theorem Gathered.finish_spec {columns : List GroupColumn} {rows : List GroupRow}
    {groups : Groups} (h : Gathered columns rows groups)
    (hrows : ∀ row ∈ rows, Uniform columns row) {records : List Record}
    (hfinish : groups.finish = .ok records) : AreGroupRecords columns rows records := by
  obtain ⟨zipped, hgroups, hrecords, hzipped⟩ := exists_zip_of_mapM_eq_ok hfinish
  have hmem : ∀ {key cells}, (key, cells) ∈ groups.sorted ↔ (key, cells) ∈ groups.cells :=
    (List.mergeSort_perm _ _).mem_iff
  refine ⟨zipped.map fun entry => (entry.1.1, entry.2), ?_, ?_, ?_, ?_⟩
  · rw [List.map_map]
    exact hrecords
  · have hsorted := pairwise_sorted h.lawful
    rw [← hgroups, List.pairwise_map] at hsorted
    exact List.pairwise_map.mpr hsorted
  · intro key
    rw [← h.mem_keys_iff hrows key]
    simp only [Keyed.keys, List.mem_map, Prod.exists, ← hmem, ← hgroups]
    simpa using exists_comm
  · -- The columns are known, since the key of the group is that of some row.
    intro key record hentry
    obtain ⟨⟨⟨key', cells⟩, record'⟩, hentry, heq⟩ := List.mem_map.mp hentry
    obtain ⟨rfl, rfl⟩ := Prod.mk.inj heq.symm
    have hsorted : (key, cells) ∈ groups.sorted := hgroups ▸ List.mem_map_of_mem hentry
    have hcells := h.cellsHold hrows (hmem.mp hsorted)
    obtain ⟨row, hrow, -⟩ := (h.mem_keys_iff hrows key).mp
      (List.mem_map_of_mem (hmem.mp hsorted))
    have hcolumns : groups.columns.getD [] = columns := by
      rw [h.columns_eq, if_neg (List.ne_nil_of_mem hrow)]
      rfl
    exact hcells.isGroupRecord (hcolumns ▸ hzipped _ hentry)

/-- Rows of one layout, fed one by one to no groups at all, are taken up to the first row
and its leftmost cell that does not go together with the rows of its group before it.  If
all are taken, the records stand for the groups in the order of their keys, and the order
in which the groups are held makes no difference to them. -/
theorem feedAll_firstRefusal_or_areGroupRecords {columns : List GroupColumn} {rows : List GroupRow}
    (hrows : ∀ row ∈ rows, Uniform columns row) :
    (feedAll empty rows).1 =
        (match firstRefusal? [] rows with
        | none => .ok ()
        | some fault => .error fault) ∧
      ∀ groups, feedAll empty rows = (.ok (), groups) →
        (∀ records, groups.finish = .ok records → AreGroupRecords columns rows records) ∧
        ∀ cells : Keyed (List GroupCell), cells.Perm groups.cells →
          finish ⟨groups.columns, cells⟩ = groups.finish := by
  have hspec := (gathered_empty columns).feedAll rows hrows
  rcases hfed : feedAll empty rows with ⟨fault | ⟨⟩, groups⟩
  · simp only [hfed] at hspec
    exact ⟨by rw [hspec], fun _ heq => absurd heq (by simp)⟩
  · simp only [hfed] at hspec
    refine ⟨by rw [hspec.1], ?_⟩
    intro groups' heq
    obtain rfl : groups = groups' := (Prod.mk.inj heq).2
    exact ⟨fun records hfinish => hspec.2.finish_spec hrows hfinish,
      fun cells hperm => finish_eq_of_perm hspec.2.lawful hperm⟩

end Records

/-- Rows of two groups in turn, whose second column is a sum that passes over an absent
value. -/
theorem areGroupRecords_in_turn :
    AreGroupRecords [.plain, .aggregate .sum none]
      [⟨1, [.int 2], [.plain (.int 2), .aggregate .sum none (.int 5)]⟩,
        ⟨2, [.int 1], [.plain (.int 1), .aggregate .sum none .null]⟩,
        ⟨3, [.int 2], [.plain (.int 2), .aggregate .sum none (.int 3)]⟩]
      [[.int 1, .int 0], [.int 2, .int 8]] := by
  obtain ⟨hrecords, hperm⟩ := (@feedAll_firstRefusal_or_areGroupRecords _
    [.plain, .aggregate .sum none]
    [⟨1, [.int 2], [.plain (.int 2), .aggregate .sum none (.int 5)]⟩,
      ⟨2, [.int 1], [.plain (.int 1), .aggregate .sum none .null]⟩,
      ⟨3, [.int 2], [.plain (.int 2), .aggregate .sum none (.int 3)]⟩] (by
    intro row hrow
    simp only [List.mem_cons, List.not_mem_nil, or_false] at hrow
    rcases hrow with rfl | rfl | rfl <;> exact ⟨rfl, rfl, by simp [isFloatFree]⟩)).2
    ⟨some [.plain, .aggregate .sum none],
      [([.int 2], [.plain (.int 2), .aggregate (.sum (.int 8))]),
        ([.int 1], [.plain (.int 1), .aggregate (.sum (.int 0))])]⟩ rfl
  refine hrecords _ ?_
  -- The groups may be held in the order of their keys, in which sorting changes nothing.
  rw [← hperm _ (List.Perm.swap _ _ _), finish, sorted, List.mergeSort_of_pairwise (by decide)]
  rfl

end Groups
end TableQuery
