import TableQuery.Table.Basic
import TableQuery.Table.FieldCounts

/-!
# Tables in memory

A table in memory may hold any values. Output in memory may be limited: it wants no more
records once it is full, but takes each record that it is given.
-/

namespace TableQuery

/-- A table in memory. -/
structure MemoryTable where
  /-- The names of the columns. -/
  header : Option (List String)
  /-- The records that have not been pulled. -/
  records : List Record
  /-- The number of records that have been pulled. -/
  pulled : Nat
  /-- Their numbers of fields. -/
  fieldCounts : FieldCounts

namespace MemoryTable

/-- The table with the given records. -/
def ofRecords (header : Option (List String)) (records : List Record) : MemoryTable :=
  ⟨header, records, 0, .none⟩

/-- The next record, and the table after it. -/
def next (table : MemoryTable) : Except TableError (Option Record) × MemoryTable :=
  match table.records with
  | [] => (.ok none, table)
  | record :: records =>
    let number := table.pulled + 1
    (.ok (some record),
      { table with
        records
        pulled := number
        fieldCounts := table.fieldCounts.observe ⟨number, record.length⟩ })

theorem length_records_of_next {table table' : MemoryTable} {record : Record}
    (h : table.next = (.ok (some record), table')) :
    table'.records.length < table.records.length := by
  unfold next at h
  split at h
  · simp at h
  · next heq =>
    simp only [Prod.mk.injEq] at h
    obtain ⟨-, rfl⟩ := h
    simp [heq]

instance : RecordSource MemoryTable where
  header := header
  next := next
  close table := { table with records := [] }
  warnings table := table.fieldCounts.warning?.toList
  remaining table := table.records.length
  remaining_lt := length_records_of_next

end MemoryTable

/-- Output in memory. -/
structure MemorySink where
  /-- The names of the columns. -/
  header : Option (List String)
  /-- The records, latest first. -/
  latest : List Record
  /-- The number of records after which no more are wanted. -/
  capacity : Option Nat
  /-- Whether the output has ended. -/
  finished : Bool

namespace MemorySink

/-- Output without records. -/
def empty (capacity : Option Nat) : MemorySink :=
  ⟨none, [], capacity, false⟩

/-- The records, in the order in which they were written. -/
def records (sink : MemorySink) : List Record :=
  sink.latest.reverse

/-- The output after one more record, and whether it is not full. -/
def write (record : Record) (sink : MemorySink) : Except TableError Demand × MemorySink :=
  let sink := { sink with latest := record :: sink.latest }
  let full := sink.capacity.any (· ≤ sink.latest.length)
  (.ok (if full then .stop else .more), sink)

instance : RecordSink MemorySink where
  announce header sink := { sink with header := some header }
  write := write
  finish sink := (.ok (), { sink with finished := true })
  warnings _ := []

end MemorySink
end TableQuery
