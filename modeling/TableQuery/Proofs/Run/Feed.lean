import TableQuery.Run.Feed
import TableQuery.Table.Memory

/-!
# Feeding a list of records

A source whose reading never fails stands for the list of its records.  Feeding such a
source to a consumer is the same as feeding the list, so that facts about a run can be
proved by induction on the records.  A source that goes on where another one ends, or fails,
leads the consumer on from the state in which that one leaves it.
-/

namespace TableQuery

/-- The records that a source yields up to its end, none of which fails to be read. -/
def RecordSource.Yields {σ : Type} [RecordSource σ] : σ → List Record → Prop
  | source, [] => (RecordSource.next source).1 = .ok none
  | source, record :: records =>
    ∃ rest, RecordSource.next source = (.ok (some record), rest) ∧
      RecordSource.Yields rest records

/-- The records that can be pulled from a source before it ends or fails. -/
def RecordSource.pulled {σ : Type} [RecordSource σ] (source : σ) : List Record :=
  match _ : RecordSource.next source with
  | (.ok (some record), rest) => record :: RecordSource.pulled rest
  | _ => []
termination_by RecordSource.remaining source
decreasing_by exact RecordSource.remaining_lt (by assumption)

theorem RecordSource.pulled_of_next {σ : Type} [RecordSource σ] {source rest : σ}
    {record : Record} (h : RecordSource.next source = (.ok (some record), rest)) :
    RecordSource.pulled source = record :: RecordSource.pulled rest := by
  rw [pulled]
  split <;> simp_all

/-- All records of a source that does not fail can be pulled. -/
theorem RecordSource.Yields.pulled_eq {σ : Type} [RecordSource σ] {source : σ}
    {records : List Record} (h : RecordSource.Yields source records) :
    RecordSource.pulled source = records := by
  induction records generalizing source with
  | nil =>
    have hend : (RecordSource.next source).1 = .ok none := h
    rw [RecordSource.pulled]
    split <;> simp_all
  | cons record records ih =>
    obtain ⟨rest, hnext, hrest⟩ := h
    rw [RecordSource.pulled_of_next hnext, ih hrest]

/-- A table in memory yields the records that it holds. -/
theorem MemoryTable.yields_records (table : MemoryTable) :
    RecordSource.Yields table table.records := by
  generalize hrecords : table.records = records
  induction records generalizing table with
  | nil =>
    show (MemoryTable.next table).1 = .ok none
    simp [MemoryTable.next, hrecords]
  | cons record records ih =>
    refine ⟨(MemoryTable.next table).2, ?_, ih _ ?_⟩
    · show MemoryTable.next table = _
      simp [MemoryTable.next, hrecords]
    · simp [MemoryTable.next, hrecords]

/-- Feeds a list of records to a consumer.  The first one has the given number. -/
def feedAll {τ : Type} (take : Consumer τ) (number : Nat) :
    List Record → τ → Except RunError Demand × τ
  | [], state => (.ok .more, state)
  | record :: records, state =>
    match take number record state with
    | (.ok .more, state) => feedAll take (number + 1) records state
    | other => other

/-- A consumer comes to the same whether it is fed a source or the list of its records. -/
theorem feed_eq_feedAll {σ τ : Type} [RecordSource σ] (take : Consumer τ) {source : σ}
    {records : List Record} (hyields : RecordSource.Yields source records) (number : Nat)
    (state : τ) :
    (feed take number source state).outcome = (feedAll take number records state).1 ∧
      (feed take number source state).state = (feedAll take number records state).2 := by
  induction records generalizing source number state with
  | nil =>
    unfold RecordSource.Yields at hyields
    rw [feed]
    split <;> simp_all [feedAll]
  | cons record records ih =>
    obtain ⟨rest, hnext, hrest⟩ := hyields
    rw [feed]
    split
    · simp_all
    · simp_all
    · next record' source' heq =>
      rw [hnext] at heq
      simp only [Prod.mk.injEq, Except.ok.injEq, Option.some.injEq] at heq
      obtain ⟨rfl, rfl⟩ := heq
      rcases hstep : take number record state with ⟨e | demand, state'⟩
      · simp [feedAll, hstep]
      · cases demand with
        | more => simpa [feedAll, hstep] using ih hrest (number + 1) state'
        | stop => simp [feedAll, hstep]

section Consumers

variable {σ τ : Type} [RecordSource σ] {take : Consumer τ} {number : Nat}

/-- A consumer that wants all records, and keeps a property of those that it has taken,
reads a source to its end. -/
theorem exists_yields_of_feed_ok {Holds : List Record → τ → Prop}
    (hstep : ∀ {before record state demand state'}, Holds before state →
      take (number + before.length) record state = (.ok demand, state') →
        demand = .more ∧ Holds (before ++ [record]) state')
    {source : σ} {state : τ} {before : List Record} (hbefore : Holds before state)
    {demand : Demand}
    (hfed : (feed take (number + before.length) source state).outcome = .ok demand) :
    ∃ records, RecordSource.Yields source records ∧
      Holds (before ++ records) (feed take (number + before.length) source state).state := by
  generalize hremaining : RecordSource.remaining source = n
  induction n using Nat.strongRecOn generalizing source state before with
  | _ n ih =>
    rw [feed] at hfed ⊢
    split at hfed
    · cases hfed
    · next rest hnext =>
      refine ⟨[], by rw [RecordSource.Yields, hnext], ?_⟩
      simpa using hbefore
    · next record rest hnext =>
      rcases htake : take (number + before.length) record state with ⟨e | taken, state'⟩
      · rw [htake] at hfed
        cases hfed
      · obtain ⟨rfl, hafter⟩ := hstep hbefore htake
        have hshorter := RecordSource.remaining_lt hnext
        have hnumber : number + before.length + 1 = number + (before ++ [record]).length := by
          simp [Nat.add_assoc]
        simp only [htake, hnumber] at hfed ⊢
        obtain ⟨records, hyields, hholds⟩ := ih _ (hremaining ▸ hshorter) hafter hfed rfl
        refine ⟨record :: records, ⟨rest, hnext, hyields⟩, ?_⟩
        simpa using hholds

/-- Two consumers come to the same if they take every record alike in all states that have a
property which is kept. -/
theorem feed_eq_and_keeps {take' : Consumer τ} {P : τ → Prop} {source : σ}
    (hstep : ∀ i record state, (RecordSource.pulled source)[i]? = some record → P state →
      take' (number + i) record state = take (number + i) record state ∧
        P (take (number + i) record state).2)
    {state : τ} (h : P state) :
    feed take' number source state = feed take number source state ∧
      P (feed take number source state).state := by
  generalize hremaining : RecordSource.remaining source = n
  induction n using Nat.strongRecOn generalizing source state number with
  | _ n ih =>
    rw [feed, feed]
    split
    · exact ⟨rfl, h⟩
    · exact ⟨rfl, h⟩
    · next record rest hnext =>
      rw [RecordSource.pulled_of_next hnext] at hstep
      obtain ⟨htake, htaken⟩ := hstep 0 record state rfl h
      rw [Nat.add_zero] at htake htaken
      rw [htake]
      split
      · next heq =>
        rw [heq] at htaken
        have hshorter := RecordSource.remaining_lt hnext
        refine ih _ (hremaining ▸ hshorter) (fun i other state hother hstate => ?_) htaken rfl
        rw [Nat.add_assoc, Nat.add_comm 1 i]
        exact hstep (i + 1) other state hother hstate
      · next heq =>
        rw [heq] at htaken
        exact ⟨rfl, htaken⟩

/-- What a consumer keeps with every record that can be pulled holds when it has been fed. -/
theorem feed_keeps {P : τ → Prop} {source : σ}
    (hstep : ∀ record ∈ RecordSource.pulled source, ∀ number state, P state →
      P (take number record state).2)
    {state : τ} (h : P state) (number : Nat) :
    P (feed take number source state).state :=
  (feed_eq_and_keeps (fun _ record state hrecord hstate =>
    ⟨rfl, hstep record (List.mem_of_getElem? hrecord) _ state hstate⟩) h).2

/-- Two consumers come to the same if one of them takes every record as the other one
does, unless that one fails. -/
theorem feed_eq_of_agree {take' : Consumer τ}
    (hagree : ∀ {number record state demand state'},
      take number record state = (.ok demand, state') →
        take' number record state = (.ok demand, state'))
    {source : σ} {state : τ} {demand : Demand}
    (hfed : (feed take number source state).outcome = .ok demand) :
    feed take' number source state = feed take number source state := by
  generalize hremaining : RecordSource.remaining source = n
  induction n using Nat.strongRecOn generalizing source state number with
  | _ n ih =>
    rw [feed] at hfed ⊢
    rw [feed]
    split at hfed
    · cases hfed
    · rfl
    · next record rest hnext =>
      rcases htake : take number record state with ⟨e | taken, state'⟩
      · rw [htake] at hfed
        cases hfed
      · rw [hagree htake]
        cases taken with
        | stop => rfl
        | more =>
          simp only [htake] at hfed
          have hshorter := RecordSource.remaining_lt hnext
          exact ih _ (hremaining ▸ hshorter) hfed rfl

end Consumers

/-! ## Sources that go on -/

section Feeding

variable {σ σ' τ : Type} [RecordSource σ] [RecordSource σ']

theorem RecordSource.exists_next_of_pulled_eq_cons {source : σ} {record : Record}
    {records : List Record} (h : RecordSource.pulled source = record :: records) :
    ∃ rest, RecordSource.next source = (.ok (some record), rest) ∧
      RecordSource.pulled rest = records := by
  rw [pulled] at h
  split at h
  · next first rest hnext =>
    obtain ⟨rfl, hrest⟩ := List.cons.inj h
    exact ⟨rest, hnext, hrest⟩
  · cases h

theorem MemoryTable.pulled_ofRecords (header : Option (List String)) (records : List Record) :
    RecordSource.pulled (MemoryTable.ofRecords header records) = records :=
  (MemoryTable.yields_records _).pulled_eq

theorem state_feed_of_pulled_eq_nil {source : σ} (h : RecordSource.pulled source = [])
    (take : Consumer τ) (number : Nat) (state : τ) :
    (feed take number source state).state = state := by
  rw [feed]
  split
  · rfl
  · rfl
  · next hnext =>
    rw [RecordSource.pulled_of_next hnext] at h
    cases h

theorem feed_of_next {source rest : σ} {record : Record}
    (h : RecordSource.next source = (.ok (some record), rest)) (take : Consumer τ) (number : Nat)
    (state : τ) :
    feed take number source state =
      match take number record state with
      | (.ok .more, state) => feed take (number + 1) rest state
      | (outcome, state) => ⟨outcome, rest, state⟩ := by
  rw [feed]
  split
  all_goals
    rename_i hnext
    rw [h] at hnext
    cases hnext
  rfl

/-- A consumer that is fed more records goes on from the state in which fewer records have
left it. -/
theorem feed_extends {take : Consumer τ} {R : τ → τ → Prop} (hrefl : ∀ state, R state state)
    (htrans : ∀ {a b c}, R a b → R b c → R a c)
    (hstep : ∀ number record state, R state (take number record state).2) {source : σ}
    {longer : σ'} (h : RecordSource.pulled source <+: RecordSource.pulled longer) (number : Nat)
    (state : τ) :
    R (feed take number source state).state (feed take number longer state).state := by
  generalize hpulled : RecordSource.pulled source = records at h
  induction records generalizing source longer number state with
  | nil =>
    -- The shorter source has come to its end, and the longer one only adds steps.
    rw [state_feed_of_pulled_eq_nil hpulled]
    apply feed_keeps ?_ (hrefl state)
    intro record _ number next hnext
    exact htrans hnext (hstep number record next)
  | cons record records ih =>
    obtain ⟨rest, hnext, hrest⟩ := RecordSource.exists_next_of_pulled_eq_cons hpulled
    obtain ⟨more, hlonger⟩ := h
    obtain ⟨rest', hnext', hrest'⟩ := RecordSource.exists_next_of_pulled_eq_cons hlonger.symm
    rw [feed_of_next hnext, feed_of_next hnext']
    rcases take number record state with ⟨e | _ | _, state'⟩
    · exact hrefl state'
    · exact ih (number + 1) state' hrest ⟨more, hrest'.symm⟩
    · exact hrefl state'

end Feeding

end TableQuery
