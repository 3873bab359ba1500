import TableQuery.Proofs.Keyed
import TableQuery.Proofs.Run.Emission
import TableQuery.Proofs.Sorting

/-!
# What the stages of a query let through

Sorting, telling rows apart and limiting their number are described as functions of the
list of all rows.  Where no key and no record holds a double, each stage lets through
exactly what its function gives, and so does the chain that a query without groups needs.
-/

namespace TableQuery

open Value

/-! ## The functions -/

/-- Rows in the order of their keys, descending if `reverse` holds, such that rows with
the same key stay in the order in which they arrived. -/
structure StablySorted (reverse : Bool) (rows sorted : List (List Value × Record)) :
    Prop where
  perm : sorted.Perm rows
  pairwise : sorted.Pairwise fun a b =>
    if reverse then cmpList a.1 b.1 ≠ .lt else cmpList a.1 b.1 ≠ .gt
  stable : ∀ key, (sorted.filter fun row => row.1 = key) = rows.filter fun row => row.1 = key

/-- Keys that may stand in front of each other are the same. -/
theorem eq_of_cmpList_ne {reverse : Bool} {as bs : List Value} (ha : areFloatFree as)
    (hb : areFloatFree bs)
    (hab : if reverse then cmpList as bs ≠ .lt else cmpList as bs ≠ .gt)
    (hba : if reverse then cmpList bs as ≠ .lt else cmpList bs as ≠ .gt) : as = bs := by
  refine (cmpList_eq_iff ha hb).mp ?_
  rw [← swap_cmpList ha hb] at hba
  cases hcmp : cmpList as bs with
  | eq => rfl
  | lt => cases reverse <;> simp [hcmp] at hab hba
  | gt => cases reverse <;> simp [hcmp] at hab hba

/-- Two lists of the same rows in the order of their keys are the same if they agree on the
rows with each key. -/
theorem eq_of_pairwise_of_filter_eq {reverse : Bool} {as bs : List (List Value × Record)}
    (hfree : ∀ row ∈ as, areFloatFree row.1) (hperm : as.Perm bs)
    (has : as.Pairwise fun a b =>
      if reverse then cmpList a.1 b.1 ≠ .lt else cmpList a.1 b.1 ≠ .gt)
    (hbs : bs.Pairwise fun a b =>
      if reverse then cmpList a.1 b.1 ≠ .lt else cmpList a.1 b.1 ≠ .gt)
    (hkeys : ∀ key, (as.filter fun row => row.1 = key) = bs.filter fun row => row.1 = key) :
    as = bs := by
  induction as generalizing bs with
  | nil => exact hperm.nil_eq
  | cons a as ih =>
    obtain _ | ⟨b, bs⟩ := bs
    · exact absurd hperm.length_eq (by simp)
    have hb : b ∈ a :: as := hperm.mem_iff.mpr List.mem_cons_self
    have ha : a ∈ b :: bs := hperm.mem_iff.mp List.mem_cons_self
    -- Each of the two first rows stands in front of the other one.
    have hkey : a.1 = b.1 := by
      rcases List.mem_cons.mp ha with rfl | ha'
      · rfl
      rcases List.mem_cons.mp hb with rfl | hb'
      · rfl
      exact eq_of_cmpList_ne (hfree a List.mem_cons_self) (hfree b hb)
        ((List.pairwise_cons.mp has).1 b hb') ((List.pairwise_cons.mp hbs).1 a ha')
    have hfirst := hkeys b.1
    simp only [hkey, decide_true, List.filter_cons_of_pos, List.cons.injEq] at hfirst
    obtain ⟨rfl, -⟩ := hfirst
    refine congrArg (a :: ·) (ih (fun row hrow => hfree row (List.mem_cons_of_mem _ hrow))
      hperm.cons_inv has.of_cons hbs.of_cons fun key => ?_)
    have hrest := hkeys key
    by_cases heq : a.1 = key <;> simpa [heq] using hrest

/-- Sorting stably leaves no choice: the keys decide between rows with different keys, and
the order of arrival between rows with the same one. -/
theorem StablySorted.unique {reverse : Bool} {rows sorted sorted' : List (List Value × Record)}
    (hfree : ∀ row ∈ rows, areFloatFree row.1) (h : StablySorted reverse rows sorted)
    (h' : StablySorted reverse rows sorted') : sorted = sorted' := by
  refine eq_of_pairwise_of_filter_eq (fun row hrow => hfree row (h.perm.mem_iff.mp hrow))
    (h.perm.trans h'.perm.symm) h.pairwise h'.pairwise fun key => ?_
  rw [h.stable, h'.stable]

/-- The first occurrences of the records, in the counted case each after the number of its
occurrences. -/
def Distinct.select : Distinct → List Record → List Record
  | .no, records => records
  | .yes, records => records.eraseDups
  | .counted, records =>
    records.eraseDups.map fun record =>
      .int (Int64.ofNat (records.count record)) :: record

namespace Plan

/-- The rows in the order that a plan asks for. -/
def ordered (plan : Plan) (rows : List (List Value × Record)) : List (List Value × Record) :=
  if plan.orderBy.isSome then Stage.inOrder plan.reverse rows else rows

/-- As many of the records as a plan allows. -/
def limited (plan : Plan) (records : List Record) : List Record :=
  match plan.limit with
  | none => records
  | some limit => records.take limit

/-- The records that a plan without groups makes of all its rows. -/
def result (plan : Plan) (rows : List (List Value × Record)) : List Record :=
  plan.limited (plan.distinct.select ((plan.ordered rows).map Prod.snd))

/-- A row on its way to the sink, with its key if the rows are to be ordered. -/
def outputRow (plan : Plan) (row : List Value × Record) : OutputRow :=
  if plan.orderBy.isSome then .keyed row.1 row.2 else .plain row.2

end Plan

namespace Stage

/-! ## Sorting -/

theorem inOrder_stablySorted (reverse : Bool) {rows : List (List Value × Record)}
    (hfree : ∀ row ∈ rows, areFloatFree row.1) :
    StablySorted reverse rows (inOrder reverse rows) := by
  -- In descending order a row may stand before another one if that one may stand before
  -- it in ascending order.
  have hle : ∀ a ∈ rows, ∀ b ∈ rows,
      ((if reverse then cmpList a.1 b.1 != .lt else cmpList a.1 b.1 != .gt) = true ↔
        if reverse then cmpList b.1 a.1 ≠ .gt else cmpList a.1 b.1 ≠ .gt) := by
    intro a ha b hb
    cases reverse with
    | false => simp
    | true => simpa using cmpList_ne_lt_iff (hfree a ha) (hfree b hb)
  have htrans : ∀ a ∈ rows, ∀ b ∈ rows, ∀ c ∈ rows,
      (if reverse then cmpList a.1 b.1 != .lt else cmpList a.1 b.1 != .gt) = true →
      (if reverse then cmpList b.1 c.1 != .lt else cmpList b.1 c.1 != .gt) = true →
      (if reverse then cmpList a.1 c.1 != .lt else cmpList a.1 c.1 != .gt) = true := by
    intro a ha b hb c hc hab hbc
    rw [hle a ha b hb] at hab
    rw [hle b hb c hc] at hbc
    rw [hle a ha c hc]
    cases reverse with
    | false => exact cmpList_ne_gt_trans (hfree a ha) (hfree b hb) (hfree c hc) hab hbc
    | true => exact cmpList_ne_gt_trans (hfree c hc) (hfree b hb) (hfree a ha) hbc hab
  have htotal : ∀ a ∈ rows, ∀ b ∈ rows,
      ((if reverse then cmpList a.1 b.1 != .lt else cmpList a.1 b.1 != .gt) ||
        (if reverse then cmpList b.1 a.1 != .lt else cmpList b.1 a.1 != .gt)) = true := by
    intro a ha b hb
    rw [Bool.or_eq_true, hle a ha b hb, hle b hb a ha]
    have := cmpList_ne_gt_total (hfree a ha) (hfree b hb)
    cases reverse with
    | false => exact this
    | true => exact this.symm
  refine ⟨List.mergeSort_perm _ _, ?_, fun key => ?_⟩
  · refine (pairwise_mergeSort_of_mem htrans htotal).imp ?_
    intro a b hab
    cases reverse <;> simpa using hab
  · refine filter_mergeSort_of_mem htrans htotal _ ?_
    intro a ha b hb hakey hbkey
    rw [hle a ha b hb, of_decide_eq_true hakey, of_decide_eq_true hbkey]
    have hkey := cmpList_self (of_decide_eq_true hbkey ▸ hfree b hb)
    cases reverse <;> simp [hkey]

variable [Hashing]

theorem emits_sorted (reverse : Bool) (latest rows : List (List Value × Record)) :
    (sorted reverse latest).Emits (rows.map fun row => .keyed row.1 row.2)
      (((inOrder reverse (latest.reverse ++ rows)).map Prod.snd).map .plain) := by
  induction rows generalizing latest with
  | nil => exact ⟨_, _, rfl, by simp⟩
  | cons row rows ih =>
    refine ⟨.kept, _, _, rfl, ih (row :: latest), ?_⟩
    simp [Flow.rows]

/-! ## Telling records apart -/

/-- Of the records to come, those pass that have not been seen, once each. -/
theorem emits_unique {seen : Keyed Unit} (hseen : seen.Lawful) {records : List Record}
    (hfree : ∀ record ∈ records, areFloatFree record) :
    (unique seen).Emits (records.map .plain)
      ((records.removeAll seen.keys).eraseDups.map .plain) := by
  induction records generalizing seen with
  | nil => exact ⟨[], _, rfl, by simp⟩
  | cons record records ih =>
    have hrecord : areFloatFree record := hfree record List.mem_cons_self
    have hrecords : ∀ record ∈ records, areFloatFree record := fun other hother =>
      hfree other (List.mem_cons_of_mem _ hother)
    by_cases hmem : record ∈ seen.keys
    · have hcontains : seen.contains record = true :=
        (Keyed.isSome_find?_iff hseen hrecord).mpr hmem
      refine ⟨.kept, unique seen, _, ?_, ih hseen hrecords, ?_⟩
      · simp [accept, OutputRow.record, acceptUnique, hcontains]
      · simp [Flow.rows, List.cons_removeAll, hmem]
    · have hcontains : ¬seen.contains record = true :=
        mt (Keyed.isSome_find?_iff hseen hrecord).mp hmem
      refine ⟨.forward (.plain record), unique (seen.alter record fun _ => ()), _, ?_,
        ih (hseen.alter hrecord _) hrecords, ?_⟩
      · simp [accept, OutputRow.record, acceptUnique, hcontains]
      · rw [Keyed.keys_alter hseen hrecord, if_neg hmem]
        simp [Flow.rows, hmem, List.eraseDups_cons, List.removeAll, List.filter_filter,
          Bool.and_comm, Bool.beq_eq_decide_eq]

omit [Hashing] in
theorem eraseDups_append_singleton (records : List Record) (record : Record) :
    (records ++ [record]).eraseDups =
      if record ∈ records then records.eraseDups else records.eraseDups ++ [record] := by
  rw [List.eraseDups_append]
  by_cases hmem : record ∈ records <;> simp [List.cons_removeAll, List.eraseDups_cons, hmem]

/-- A table that holds how often each of some records occurs. -/
structure Counts (records : List Record) (seen : Keyed Nat) : Prop where
  lawful : seen.Lawful
  keys_eq : seen.keys = records.eraseDups
  find_eq : ∀ record ∈ records, seen.find? record = some (records.count record)

theorem counts_nil : Counts [] [] :=
  ⟨Keyed.lawful_nil, rfl, nofun⟩

theorem Counts.alter {records : List Record} {seen : Keyed Nat} (h : Counts records seen)
    {record : Record} (hrecord : areFloatFree record) :
    Counts (records ++ [record]) (seen.alter record fun n => n.getD 0 + 1) where
  lawful := h.lawful.alter hrecord _
  keys_eq := by
    simp only [Keyed.keys_alter h.lawful hrecord, h.keys_eq, List.mem_eraseDups,
      eraseDups_append_singleton]
  find_eq other hother := by
    by_cases heq : record = other
    · subst heq
      rw [Keyed.find?_alter_self h.lawful hrecord, List.count_append, List.count_singleton_self]
      by_cases hmem : record ∈ records
      · rw [h.find_eq record hmem, Option.getD_some]
      · have hkeys : record ∉ seen.keys := by rwa [h.keys_eq, List.mem_eraseDups]
        rw [Keyed.find?_eq_none h.lawful hrecord hkeys, List.count_eq_zero_of_not_mem hmem]
        rfl
    · have hother : other ∈ records := by
        simpa [Ne.symm heq] using hother
      have hfree : areFloatFree other :=
        h.lawful.floatFree other (by rwa [h.keys_eq, List.mem_eraseDups])
      rw [Keyed.find?_alter_of_ne h.lawful hrecord hfree heq, h.find_eq other hother]
      simp [List.count_append, heq]

/-- The records are counted and held back until all of them have come. -/
theorem emits_counted {before records : List Record} {seen : Keyed Nat}
    (hseen : Counts before seen) (hfree : ∀ record ∈ records, areFloatFree record) :
    (counted seen).Emits (records.map .plain)
      ((Distinct.counted.select (before ++ records)).map .plain) := by
  induction records generalizing before seen with
  | nil =>
    have hrecords : (seen.map fun entry => withCount entry.2 entry.1) =
        Distinct.counted.select before := by
      rw [Distinct.select, ← hseen.keys_eq, Keyed.keys, List.map_map]
      refine List.map_congr_left ?_
      rintro ⟨record, count⟩ hmem
      have hrecord : record ∈ before := by
        rw [← List.mem_eraseDups, ← hseen.keys_eq]
        exact List.mem_map_of_mem hmem
      have hfind := hseen.find_eq record hrecord
      rw [Keyed.find?_of_mem hseen.lawful hmem] at hfind
      simp [withCount, Option.some.inj hfind]
    exact ⟨_, _, rfl, by rw [List.append_nil, hrecords]⟩
  | cons record records ih =>
    refine ⟨.kept, _, _, rfl, ih (hseen.alter (hfree record List.mem_cons_self)) ?_, ?_⟩
    · exact fun other hother => hfree other (List.mem_cons_of_mem _ hother)
    · simp [Flow.rows]

/-! ## Limiting -/

theorem emits_top (limit passed : Nat) (rows : List OutputRow) :
    (top limit passed).Emits rows (rows.take (limit - passed)) := by
  induction rows generalizing passed with
  | nil => exact ⟨[], _, rfl, by simp⟩
  | cons row rows ih =>
    by_cases hclosed : limit ≤ passed
    · refine ⟨.closed, top limit passed, _, ?_, ih passed, ?_⟩
      · simp [accept, acceptTop, hclosed]
      · simp [Flow.rows, Nat.sub_eq_zero_of_le hclosed]
    · have hrest : limit - passed = limit - (passed + 1) + 1 := by omega
      by_cases hlast : passed + 1 = limit
      · refine ⟨.last row, top limit (passed + 1), _, ?_, ih (passed + 1), ?_⟩
        · simp [accept, acceptTop, hclosed, hlast]
        · rw [hrest, List.take_succ_cons]
          rfl
      · refine ⟨.forward row, top limit (passed + 1), _, ?_, ih (passed + 1), ?_⟩
        · simp [accept, acceptTop, hclosed, hlast]
        · rw [hrest, List.take_succ_cons]
          rfl

/-! ## The chain of a query without groups -/

omit [Hashing] in
theorem mapM_record_map_plain (records : List Record) :
    (records.map OutputRow.plain).mapM OutputRow.record = .ok records := by
  induction records with
  | nil => rfl
  | cons record records ih =>
    rw [List.map_cons, List.mapM_cons, ih]
    rfl

/-- The stage that tells records apart, if a plan has one. -/
def distinction (plan : Plan) : List Stage :=
  match plan.distinct with
  | .no => []
  | .yes => [unique []]
  | .counted => [counted []]

/-- The stage that limits the number of records, if a plan has one, after some number of
records. -/
def limiting (plan : Plan) (passed : Nat) : List Stage :=
  match plan.limit with
  | none => []
  | some limit => [top limit passed]

omit [Hashing] in
theorem ofPlan_eq {plan : Plan} (hplain : plan.isAggregate = false) :
    ofPlan plan = (if plan.orderBy.isSome then [sorted plan.reverse []] else []) ++
      (distinction plan ++ limiting plan 0) := by
  simp only [ofPlan, hplain, Bool.false_eq_true, if_false, List.nil_append, List.append_assoc]
  rfl

omit [Hashing] in
theorem isFlat_of_mem_ofPlan {plan : Plan} (hplain : plan.isAggregate = false) :
    ∀ stage ∈ ofPlan plan, stage.isFlat := by
  intro stage hstage
  rw [ofPlan_eq hplain, List.mem_append, List.mem_append] at hstage
  rcases hstage with hstage | hstage | hstage
  · split at hstage
    · rw [List.mem_singleton.mp hstage]
      rfl
    · simp at hstage
  · unfold distinction at hstage
    split at hstage
    · simp at hstage
    · rw [List.mem_singleton.mp hstage]
      rfl
    · rw [List.mem_singleton.mp hstage]
      rfl
  · unfold limiting at hstage
    split at hstage
    · simp at hstage
    · rw [List.mem_singleton.mp hstage]
      rfl

theorem emitsAll_limiting (plan : Plan) (records : List Record) :
    EmitsAll (limiting plan 0) (records.map .plain) (plan.limited records) := by
  unfold limiting Plan.limited
  cases plan.limit with
  | none => exact mapM_record_map_plain records
  | some limit =>
    refine ⟨_, emits_top limit 0 _, ?_⟩
    rw [Nat.sub_zero, ← List.map_take]
    exact mapM_record_map_plain _

theorem emitsAll_distinction (plan : Plan) {records : List Record}
    (hfree : ∀ record ∈ records, areFloatFree record) :
    EmitsAll (distinction plan ++ limiting plan 0) (records.map .plain)
      (plan.limited (plan.distinct.select records)) := by
  unfold distinction
  cases plan.distinct with
  | no => exact emitsAll_limiting plan records
  | yes =>
    have hunique := emits_unique Keyed.lawful_nil hfree
    rw [Keyed.keys_nil, List.removeAll_nil] at hunique
    exact ⟨_, hunique, emitsAll_limiting plan _⟩
  | counted => exact ⟨_, emits_counted counts_nil hfree, emitsAll_limiting plan _⟩

/-- Without groups, the chain of a plan lets through what the plan asks for. -/
theorem emitsAll_ofPlan {plan : Plan} (hplain : plan.isAggregate = false)
    {rows : List (List Value × Record)} (hfree : ∀ row ∈ rows, areFloatFree row.2) :
    EmitsAll (ofPlan plan) (rows.map plan.outputRow) (plan.result rows) := by
  have hordered : ∀ record ∈ (plan.ordered rows).map Prod.snd, areFloatFree record := by
    intro record hrecord
    obtain ⟨row, hrow, rfl⟩ := List.mem_map.mp hrecord
    unfold Plan.ordered at hrow
    split at hrow
    · exact hfree row ((List.mergeSort_perm _ _).mem_iff.mp hrow)
    · exact hfree row hrow
  have hrest := emitsAll_distinction plan hordered
  rw [ofPlan_eq hplain]
  unfold Plan.result Plan.outputRow
  unfold Plan.ordered at hrest ⊢
  cases hsome : plan.orderBy.isSome with
  | true =>
    simp only [hsome, if_true] at hrest ⊢
    exact ⟨_, emits_sorted plan.reverse [] rows, hrest⟩
  | false =>
    simp only [hsome, Bool.false_eq_true, if_false, List.map_map] at hrest ⊢
    exact hrest

end Stage
end TableQuery
