import TableQuery.Run.JoinIndex
import TableQuery.Proofs.Keyed
import TableQuery.Proofs.Run.Feed

/-!
# Join indexes and nested loops

The partners that an index finds are those that a nested loop over the join table finds:
every join record whose key is the key of the input record, in the order of the join
table and with its number in it.  The index is filled record by record, and the invariant
is that it answers every key with the records taken so far that have this key.
-/

namespace TableQuery
namespace JoinIndex

open Value

/-- The records of a join table, numbered in their order from the given number on. -/
def numbered (number : Nat) (records : List Record) : List Partner :=
  (records.zipIdx number).map fun (record, position) => ⟨some position, record⟩

/-- The number of fields of the widest record. -/
def widest (records : List Record) : Nat :=
  (records.map List.length).max?.getD 0

/-- Whether a join record has a key. -/
def hasKey (spec : JoinSpec) (key : List Value) (partner : Partner) : Bool :=
  match joinKey spec partner with
  | .ok own => own = key
  | .error _ => false

theorem numbered_cons (number : Nat) (record : Record) (records : List Record) :
    numbered number (record :: records) =
      ⟨some number, record⟩ :: numbered (number + 1) records :=
  rfl

theorem widest_append_singleton (records : List Record) (record : Record) :
    widest (records ++ [record]) = max (widest records) record.length := by
  cases records with
  | nil => simp [widest]
  | cons first records =>
    simp only [widest, List.cons_append, List.map_cons, List.map_append, List.map_nil,
      List.max?_cons', List.foldl_append, List.foldl_cons, List.foldl_nil, Option.getD_some]

/-! ## What the index holds -/

section Holding

variable [Hashing]

/-- An index that holds exactly the given join records. -/
structure Holds (spec : JoinSpec) (partners : List Partner) (index : JoinIndex) : Prop where
  spec_eq : index.spec = spec
  lawful : index.partners.Lawful
  find_eq : ∀ key, areFloatFree key → index.find key = partners.filter (hasKey spec key)
  width_eq : index.width = widest (partners.map Partner.fields)

/-- One more record is found under its key and under no other one. -/
theorem find_add {index : JoinIndex} {key : List Value} (hlawful : index.partners.Lawful)
    (hkey : areFloatFree key) (partner : Partner) {other : List Value}
    (hother : areFloatFree other) :
    (index.add key partner).find other =
      index.find other ++ if key = other then [partner] else [] := by
  by_cases heq : key = other
  · subst heq
    simp [add, find, Keyed.find?_alter_self hlawful hkey]
  · simp [add, find, Keyed.find?_alter_of_ne hlawful hkey hother heq, heq]

theorem Holds.add {spec : JoinSpec} {partners : List Partner} {index : JoinIndex}
    {partner : Partner} {key : List Value} (h : Holds spec partners index)
    (hjoin : joinKey spec partner = .ok key) (hkey : areFloatFree key) :
    Holds spec (partners ++ [partner]) (index.add key partner) where
  spec_eq := h.spec_eq
  lawful := h.lawful.alter hkey fun others => others.getD [] ++ [partner]
  find_eq other hother := by
    rw [find_add h.lawful hkey partner hother, h.find_eq other hother]
    by_cases heq : key = other <;> simp [hasKey, hjoin, heq]
  width_eq := by
    rw [List.map_append, List.map_singleton, widest_append_singleton, ← h.width_eq]
    rfl

/-- Join records that all have keys are read to the end, which keeps the invariant. -/
theorem Holds.feedAll {spec : JoinSpec} {partners : List Partner} {index : JoinIndex}
    (h : Holds spec partners index) (number : Nat) (records : List Record)
    (hkeys : ∀ partner ∈ numbered number records,
      ∃ key, joinKey spec partner = .ok key ∧ areFloatFree key) :
    Holds spec (partners ++ numbered number records)
        (feedAll insert number records index).2 ∧
      (feedAll insert number records index).1 = .ok .more := by
  induction records generalizing partners index number with
  | nil => simpa [numbered, TableQuery.feedAll] using h
  | cons record records ih =>
    rw [numbered_cons] at hkeys ⊢
    obtain ⟨key, hjoin, hkey⟩ := hkeys _ List.mem_cons_self
    have hnext := ih (h.add hjoin hkey) (number + 1)
      fun partner hpartner => hkeys partner (List.mem_cons_of_mem _ hpartner)
    simpa [TableQuery.feedAll, insert, h.spec_eq, hjoin] using hnext

end Holding

/-! ## Reading the join table -/

section Reading

variable [Hashing]

end Reading

end JoinIndex
end TableQuery
