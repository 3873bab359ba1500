import TableQuery.Proofs.Except
import TableQuery.Proofs.Run.NestedLoop
import TableQuery.Run.Execution

/-!
# The number of fields of partners

The index of a join table holds records of the table only.  So partners have as many fields
as these records, and one that stands in for a missing partner has as many as the widest of
them, which are none where the table has no records.
-/

namespace TableQuery

namespace JoinIndex

theorem widest_eq {n : Nat} {records : List Record} (hne : records ≠ [])
    (h : ∀ record ∈ records, record.length = n) : widest records = n := by
  have hlengths : records.map List.length = List.replicate records.length n :=
    List.map_eq_replicate_iff.mpr h
  have hpos : records.length ≠ 0 := fun hzero => hne (List.length_eq_zero_iff.mp hzero)
  rw [widest, hlengths, List.max?_replicate_of_pos (Nat.pos_of_ne_zero hpos), Option.getD_some]

/-- An index of some of the given records, as wide as the widest of them. -/
structure Indexes (spec : JoinSpec) (records : List Record) (index : JoinIndex) : Prop where
  spec_eq : index.spec = spec
  width : index.width = widest records
  partners : ∀ entry ∈ index.partners, ∀ partner ∈ entry.2, partner.fields ∈ records

theorem indexes_empty (spec : JoinSpec) : Indexes spec [] (empty spec) :=
  ⟨rfl, rfl, nofun⟩

variable [Hashing]

theorem Indexes.add {spec : JoinSpec} {records : List Record} {index : JoinIndex}
    (h : Indexes spec records index) (key : List Value) (partner : Partner) :
    Indexes spec (records ++ [partner.fields]) (index.add key partner) where
  spec_eq := h.spec_eq
  width := by
    rw [widest_append_singleton, ← h.width]
    rfl
  partners := by
    have hlast : partner.fields ∈ records ++ [partner.fields] :=
      List.mem_append_right _ (List.mem_singleton_self _)
    have hothers : ∀ entry ∈ index.partners, ∀ other ∈ entry.2,
        other.fields ∈ records ++ [partner.fields] :=
      fun entry hentry other hother =>
        List.mem_append_left _ (h.partners entry hentry other hother)
    refine Keyed.forall_mem_alter (fun others => others.getD [] ++ [partner]) ?_ ?_ hothers
    · exact List.forall_mem_singleton.mpr hlast
    · intro k found hfound
      exact List.forall_mem_append.mpr ⟨hfound, List.forall_mem_singleton.mpr hlast⟩

theorem Indexes.of_insert {spec : JoinSpec} {records : List Record} {record : Record}
    {index index' : JoinIndex} {number : Nat} {demand : Demand} (h : Indexes spec records index)
    (hinsert : insert number record index = (.ok demand, index')) :
    demand = .more ∧ Indexes spec (records ++ [record]) index' := by
  unfold insert at hinsert
  dsimp only at hinsert
  split at hinsert
  · cases hinsert
  · cases hinsert
    exact ⟨rfl, h.add _ ⟨_, record⟩⟩

/-- The index of a join table is one of the records that can be pulled from it. -/
theorem indexes_of_build {σ : Type} [RecordSource σ] {spec : JoinSpec} {table : σ}
    {demand : Demand} (h : (build spec table).outcome = .ok demand) :
    Indexes spec (RecordSource.pulled table) (build spec table).state := by
  have hfed : (feed insert (1 + ([] : List Record).length) table (empty spec)).outcome =
    .ok demand := h
  obtain ⟨records, hyields, hindexes⟩ :=
    exists_yields_of_feed_ok Indexes.of_insert (indexes_empty spec) hfed
  rw [hyields.pulled_eq]
  exact hindexes

theorem mem_of_mem_find {index : JoinIndex} {key : List Value} {partner : Partner}
    (h : partner ∈ index.find key) : ∃ entry ∈ index.partners, partner ∈ entry.2 := by
  unfold find at h
  cases hfind : index.partners.find? key with
  | none =>
    rw [hfind] at h
    cases h
  | some partners =>
    rw [hfind] at h
    obtain ⟨k, hmem⟩ := Keyed.exists_mem_of_find? hfind
    exact ⟨(k, partners), hmem, h⟩

/-- A partner is a record of the join table, or stands in for one in a left join. -/
theorem mem_or_eq_of_mem_lookup {index : JoinIndex} {record : Record} {number : Nat}
    {partners : List Partner} (h : index.lookup record number = .ok partners)
    {partner : Partner} (hpartner : partner ∈ partners) :
    (∃ entry ∈ index.partners, partner ∈ entry.2) ∨
      index.spec.kind = .left ∧ partner = index.absent := by
  obtain ⟨key, -, h⟩ := bind_eq_ok_iff.mp h
  unfold partnersOf at h
  dsimp only at h
  split at h
  · cases h
    exact .inl (mem_of_mem_find hpartner)
  · next hkind =>
    cases h
    split at hpartner
    · exact .inr ⟨hkind, List.mem_singleton.mp hpartner⟩
    · exact .inl (mem_of_mem_find hpartner)
  · split at h
    · cases h
      exact .inl (mem_of_mem_find hpartner)
    · cases h

/-- All partners have as many fields as the records of the join table, and so have those
that stand in for one if they are given as many. -/
theorem Indexes.length_fields {spec : JoinSpec} {records : List Record} {index : JoinIndex}
    (h : Indexes spec records index) {n : Nat} (hsame : ∀ record ∈ records, record.length = n)
    (habsent : spec.kind = .left → widest records = n) {record : Record} {number : Nat}
    {partners : List Partner} (hlookup : index.lookup record number = .ok partners) :
    ∀ partner ∈ partners, partner.fields.length = n := by
  intro partner hpartner
  obtain ⟨entry, hentry, hmem⟩ | ⟨hkind, rfl⟩ := mem_or_eq_of_mem_lookup hlookup hpartner
  · exact hsame _ (h.partners entry hentry partner hmem)
  · rw [absent, List.length_replicate, h.width, habsent (h.spec_eq ▸ hkind)]

end JoinIndex

namespace Plan

variable [Hashing]

/-- All partners of input records have the given number of fields, which is zero in a query
that does not join. -/
def PartnersHave (index : Option JoinIndex) (n : Nat) : Prop :=
  ∀ record number rows, rowsBeside index record number = .ok rows →
    ∀ row ∈ rows, row.fields = record ∧ row.partnerFields.length = n

theorem partnersHave_none : PartnersHave none 0 := by
  intro record number rows hrows
  cases hrows
  exact List.forall_mem_singleton.mpr ⟨rfl, rfl⟩

theorem partnersHave_some {spec : JoinSpec} {records : List Record} {index : JoinIndex}
    (h : index.Indexes spec records) {n : Nat} (hsame : ∀ record ∈ records, record.length = n)
    (habsent : spec.kind = .left → JoinIndex.widest records = n) :
    PartnersHave (some index) n := by
  intro record number rows hrows
  obtain ⟨partners, hlookup, rfl⟩ := map_eq_ok_iff.mp hrows
  exact List.forall_mem_map.mpr fun partner hpartner =>
    ⟨rfl, h.length_fields hsame habsent hlookup partner hpartner⟩

end Plan
end TableQuery
