/-!
# Field counts

The records of a table should all have the same number of fields. The first record that
differs from the first one of all is reported.
-/

namespace TableQuery

/-- A record and the number of its fields. -/
structure FieldCount where
  /-- The number of the record. -/
  record : Nat
  /-- The number of its fields. -/
  fields : Nat

/-- What is remembered of the numbers of fields. -/
structure FieldCounts where
  /-- The first record. -/
  first : Option FieldCount
  /-- The first record that differs from it. -/
  different : Option FieldCount

namespace FieldCounts

/-- Before the first record. -/
def none : FieldCounts :=
  ⟨.none, .none⟩

/-- After a record. -/
def observe (counts : FieldCounts) (count : FieldCount) : FieldCounts :=
  match counts.first, counts.different with
  | .none, _ => { counts with first := some count }
  | some first, .none =>
    if first.fields = count.fields then counts else { counts with different := some count }
  | some _, some _ => counts

/-- The warning, if there is a record that differs. -/
def warning? (counts : FieldCounts) : Option String :=
  match counts.first, counts.different with
  | some ⟨record, fields⟩, some ⟨other, others⟩ =>
    some (s!"inconsistent field counts: record {record} has {fields} fields, " ++
      s!"record {other} has {others}")
  | _, _ => .none

end FieldCounts
end TableQuery
