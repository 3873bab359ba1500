import TableQuery.Proofs.Query.Clauses
import TableQuery.Proofs.Query.Equality
import TableQuery.Proofs.Run.Partners
import TableQuery.Proofs.Run.Phases
import TableQuery.Run.Projection

/-!
# Records without a partner

In a left join an input record without a partner stands beside absent values.  There are as
many of them as the join table has columns, so that every field that a query can name is
there to be read.  Only a join table without records does not show how many they should be:
then no field is there.
-/

namespace TableQuery

/-- A table that tells the names of its columns, and whose records all have a field for each
of them. -/
def RecordSource.HasColumns {ρ : Type} [RecordSource ρ] (table : ρ) (names : List String) :
    Prop :=
  RecordSource.header table = some names ∧
    ∀ record ∈ RecordSource.pulled table, record.length = names.length

/-- What is read of the join record in a row that has none: no numbers, and absent values in
the given number of fields. -/
structure Row.ShowsAbsent (row : Row) (n : Nat) : Prop where
  recordNumber : ∀ params, (Bound.recordNumber .join).eval row params = .ok .null
  fieldCount : ∀ params, (Bound.fieldCount .join).eval row params = .ok .null
  field : ∀ position spelling params, (Bound.field .join position spelling).eval row params =
    if position < n then .ok .null else .error (.noSuchColumn spelling)
  star : ∀ plan : Plan, plan.starFields row .join = List.replicate n .null
  starAll : ∀ plan : Plan, plan.starFields row .all = row.fields ++ List.replicate n .null

theorem Row.showsAbsent_replicate (record : Record) (number n : Nat) :
    Row.ShowsAbsent ⟨record, number, some ⟨none, List.replicate n .null⟩⟩ n where
  recordNumber _ := rfl
  fieldCount _ := rfl
  field position spelling params := by
    simp only [Bound.eval, Row.record?, Option.map_some, Option.bind_some,
      List.getElem?_replicate]
    by_cases hposition : position < n
    · simp only [if_pos hposition]
    · simp only [if_neg hposition]
  star _ := rfl
  starAll _ := rfl

namespace JoinIndex

/-- Records of the same number of fields show it, if there are any. -/
theorem widest_eq_ite {n : Nat} {records : List Record}
    (h : ∀ record ∈ records, record.length = n) :
    widest records = if records.isEmpty then 0 else n := by
  cases records with
  | nil => rfl
  | cons record records => exact widest_eq (List.cons_ne_nil record records) h

variable {index : JoinIndex} {record : Record} {number : Nat} {key : List Value}

variable [Hashing]

theorem partnersOf_unmatched (hkind : index.spec.kind = .left) (hfind : index.find key = []) :
    index.partnersOf key number = .ok [index.absent] := by
  simp only [partnersOf, hkind, hfind]
  rfl

theorem lookup_unmatched (hkind : index.spec.kind = .left)
    (hkey : index.inputKey record number = .ok key) (hfind : index.find key = []) :
    index.lookup record number = .ok [index.absent] := by
  rw [lookup, hkey, ok_bind, partnersOf_unmatched hkind hfind]

theorem lookupOne_unmatched (hkind : index.spec.kind = .left)
    (hkey : index.inputKey record number = .ok key) (hfind : index.find key = []) :
    index.lookupOne record number = .ok (some index.absent) := by
  rw [lookupOne, hkey, ok_bind, partnersOf_unmatched hkind hfind]
  rfl

end JoinIndex

namespace Plan

variable {ρ : Type} [RecordSource ρ] {plan : Plan} {spec : JoinSpec} {index : JoinIndex}

/-- In a left join an input record without a partner has exactly one row, for a select clause
and for an update clause.  All fields that the header of the join table has a name for are
absent values in it, and its stars stand for as many; but there are none of them if the join
table has no records. -/
theorem rowsBeside_unmatched [Hashing] (hspec : plan.join = some spec) (hkind : spec.kind = .left)
    {table : ρ} (hindex : plan.JoinsBy (some table) (some index)) {names : List String}
    (hcolumns : RecordSource.HasColumns table names) {record : Record} {number : Nat}
    {key : List Value} (hkey : index.inputKey record number = .ok key)
    (hfind : index.find key = []) :
    ∃ row, rowsBeside (some index) record number = .ok [row] ∧ row.fields = record ∧
      index.lookupOne record number = .ok row.partner ∧
      row.ShowsAbsent (if (RecordSource.pulled table).isEmpty then 0 else names.length) := by
  obtain ⟨spec', table', demand, hspec', htable, hbuilt, rfl⟩ := hindex
  obtain rfl : spec = spec' := Option.some.inj (hspec.symm.trans hspec')
  obtain rfl : table = table' := Option.some.inj htable
  have hindexes := JoinIndex.indexes_of_build hbuilt
  have hleft : (JoinIndex.build spec table).state.spec.kind = .left := by
    rw [hindexes.spec_eq, hkind]
  have hwidth := hindexes.width.trans (JoinIndex.widest_eq_ite hcolumns.2)
  refine ⟨⟨record, number, some (JoinIndex.build spec table).state.absent⟩, ?_, rfl, ?_, ?_⟩
  · rw [rowsBeside, JoinIndex.lookup_unmatched hleft hkey hfind]
    rfl
  · exact JoinIndex.lookupOne_unmatched hleft hkey hfind
  · rw [JoinIndex.absent, hwidth]
    exact Row.showsAbsent_replicate record number _

/-- A query for a field of the join table. -/
theorem ofQuery_leftField :
    ofQuery "select b1 left join b on a1 == b1".toList ⟨[("a1", 0)], some ["x"]⟩
        (some ⟨[("b1", 0)], some ["y"]⟩) Scope.empty =
      .ok ⟨.select [.value (.field .join 0 "b1")], none,
        some ⟨"b", .left, [⟨.field .input 0 "a1", .field .join 0 "b1"⟩]⟩, none, false, none,
        .no, none, none, 0, some ["y"]⟩ := by
  have hfound : ClauseKind.all.mapM (KeywordPlace.one? "select b1 left join b on a1 == b1".toList) =
      .ok [some ⟨.join, .left, 10, 19⟩, some ⟨.select, .inner, 0, 6⟩, none, none, none, none,
        none, none] := rfl
  have hplaces : KeywordPlace.all "select b1 left join b on a1 == b1".toList =
      .ok [⟨.select, .inner, 0, 6⟩, ⟨.join, .left, 10, 19⟩] :=
    KeywordPlace.all_eq_ok hfound (List.Perm.swap _ _ _) (by decide)
  rw [ofQuery_eq_of_places (by decide +kernel) (by decide +kernel) hplaces]
  decide +kernel

/-- A join table of two columns, whose only record has another key. -/
theorem rowsBeside_unmatched_pair :
    let spec : JoinSpec := ⟨"b", .left, [⟨.field .input 0 "a1", .field .join 0 "b1"⟩]⟩
    let plan : Plan := ⟨.select [.star .all], none, some spec, none, false, none, .no, none, none,
      0, some ["x", "y", "z"]⟩
    let table := MemoryTable.ofRecords (some ["y", "z"]) [[.int 1, .text "u"]]
    let index := (JoinIndex.build spec table).state
    plan.join = some spec ∧ spec.kind = .left ∧
      plan.JoinsBy (some table) (some index) ∧
      RecordSource.HasColumns table ["y", "z"] ∧
      index.inputKey [.int 2] 1 = .ok [.int 2] ∧ index.find [.int 2] = [] ∧
      ∃ row, rowsBeside (some index) [.int 2] 1 = .ok [row] ∧ row.fields = [.int 2] ∧
        index.lookupOne [.int 2] 1 = .ok row.partner ∧
        row.ShowsAbsent (if (RecordSource.pulled table).isEmpty then 0 else 2) := by
  intro spec plan table index
  have houtcome : (JoinIndex.build spec table).outcome = .ok .more := by cbv
  have hindex : plan.JoinsBy (some table) (some index) :=
    ⟨spec, table, .more, rfl, rfl, houtcome, rfl⟩
  have hcolumns : RecordSource.HasColumns table ["y", "z"] := by
    refine ⟨rfl, ?_⟩
    rw [MemoryTable.pulled_ofRecords]
    decide
  have hkey : index.inputKey [.int 2] 1 = .ok [.int 2] := by
    simp only [index, spec, table]
    cbv
  have hfind : index.find [.int 2] = [] := by
    simp only [index, spec, table]
    decide +kernel
  exact ⟨rfl, rfl, hindex, hcolumns, hkey, hfind,
    rowsBeside_unmatched rfl rfl hindex hcolumns hkey hfind⟩

/-- A join table with a column and without records makes a left join fail: the field of the
column is not there. -/
theorem rowsBeside_unmatched_fails :
    ∃ plan, ofQuery "select b1 left join b on a1 == b1".toList ⟨[("a1", 0)], some ["x"]⟩
        (some ⟨[("b1", 0)], some ["y"]⟩) Scope.empty = .ok plan ∧
      let table := MemoryTable.ofRecords (some ["y"]) []
      RecordSource.HasColumns table ["y"] ∧
      (plan.run (MemoryTable.ofRecords (some ["x"]) [[.int 7]]) (some table)
        (MemorySink.empty none)).outcome = .error (.data (.noSuchColumn "b1" 1)) := by
  refine ⟨_, ofQuery_leftField, ⟨rfl, ?_⟩, by cbv⟩
  rw [MemoryTable.pulled_ofRecords]
  simp

end Plan
end TableQuery
