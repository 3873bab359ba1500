import TableQuery.Proofs.Run.Stages

/-!
# When no more rows are wanted

A chain that holds rows back wants all rows, whatever its limit.  One that does not says
that no more are wanted with the row that fills the limit; a limit of nothing is noticed
only when a row reaches it.
-/

namespace TableQuery

open Value

namespace Plan

/-- Whether rows are held back until all of them have come. -/
def holdsBack (plan : Plan) : Bool :=
  plan.orderBy.isSome || plan.distinct == .counted

/-- Whether a limit is filled by some number of records. -/
def reaches (plan : Plan) (count : Nat) : Bool :=
  plan.limit.any fun limit => max limit 1 ≤ count

/-- Whether no more rows are wanted after some rows. -/
def isFilledBy (plan : Plan) (rows : List (List Value × Record)) : Bool :=
  !plan.holdsBack && plan.reaches (plan.distinct.select (rows.map Prod.snd)).length

theorem reaches_mono {plan : Plan} {count count' : Nat} (h : count ≤ count')
    (hreaches : plan.reaches count = true) : plan.reaches count' = true := by
  unfold reaches at *
  cases hlimit : plan.limit with
  | none => simp [hlimit] at hreaches
  | some limit =>
    simp only [hlimit, Option.any_some, decide_eq_true_eq] at hreaches ⊢
    omega

theorem isFilledBy_append {plan : Plan} {rows : List (List Value × Record)}
    (h : plan.isFilledBy rows = true) (more : List (List Value × Record)) :
    plan.isFilledBy (rows ++ more) = true := by
  unfold isFilledBy at *
  rw [Bool.and_eq_true] at h ⊢
  refine ⟨h.1, reaches_mono ?_ h.2⟩
  cases hdistinct : plan.distinct with
  | no => simp [Distinct.select]
  | yes => simp [Distinct.select, List.eraseDups_append]
  | counted => simp [Distinct.select, List.eraseDups_append]

theorem isFilledBy_nil (plan : Plan) : plan.isFilledBy [] = false := by
  unfold isFilledBy reaches
  cases plan.limit <;> cases plan.distinct <;> simp [Distinct.select]

end Plan

namespace Stage

variable [Hashing]

/-- A limit counts the rows until one of them fills it. -/
theorem acceptAll_limiting (plan : Plan) (passed : Nat) (row : OutputRow) :
    ∃ flow stages', acceptAll row (limiting plan passed) = (.ok flow, stages') ∧
      flow.ends = plan.reaches (passed + 1) ∧
      (flow.ends = false → stages' = limiting plan (passed + 1)) := by
  unfold limiting Plan.reaches
  cases hlimit : plan.limit with
  | none => exact ⟨.forward row, [], rfl, rfl, fun _ => rfl⟩
  | some limit =>
    simp only [Option.any_some]
    by_cases hclosed : limit ≤ passed
    · refine ⟨.closed, [top limit passed], ?_, ?_, fun h => by simp [Flow.ends] at h⟩
      · simp [acceptAll, accept, acceptTop, hclosed]
      · simp [Flow.ends]
        omega
    · by_cases hlast : passed + 1 = limit
      · refine ⟨.last row, [top limit (passed + 1)], ?_, ?_, fun h => by simp [Flow.ends] at h⟩
        · simp [acceptAll, accept, acceptTop, hclosed, hlast, Except.map, Flow.asLast]
        · simp [Flow.ends]
          omega
      · refine ⟨.forward row, [top limit (passed + 1)], ?_, ?_, fun _ => rfl⟩
        · simp [acceptAll, accept, acceptTop, hclosed, hlast]
        · simp [Flow.ends]
          omega

/-- A record that has been seen goes no further than the stage that knows it, and any other
one counts for the limit. -/
theorem acceptAll_unique {plan : Plan} {seen : Keyed Unit} (hseen : seen.Lawful)
    (hopen : plan.reaches seen.keys.length = false) {row : OutputRow} {record : Record}
    (hrecord : row.record = .ok record) (hfree : areFloatFree record) :
    ∃ flow stages', ∃ seen' : Keyed Unit,
      acceptAll row (unique seen :: limiting plan seen.keys.length) = (.ok flow, stages') ∧
        seen'.Lawful ∧
        seen'.keys = (if record ∈ seen.keys then seen.keys else seen.keys ++ [record]) ∧
        flow.ends = plan.reaches seen'.keys.length ∧
        (flow.ends = false → stages' = unique seen' :: limiting plan seen'.keys.length) := by
  by_cases hmem : record ∈ seen.keys
  · have hcontains : seen.contains record = true :=
      (Keyed.isSome_find?_iff hseen hfree).mpr hmem
    refine ⟨.kept, unique seen :: limiting plan seen.keys.length, seen, ?_, hseen,
      (if_pos hmem).symm, hopen.symm, fun _ => rfl⟩
    simp [acceptAll, accept, hrecord, acceptUnique, hcontains]
  · have hcontains : ¬seen.contains record = true :=
      mt (Keyed.isSome_find?_iff hseen hfree).mp hmem
    have hkeys : (seen.alter record fun _ => ()).keys = seen.keys ++ [record] := by
      rw [Keyed.keys_alter hseen hfree, if_neg hmem]
    obtain ⟨flow, stages', haccept, hends, hstages⟩ :=
      acceptAll_limiting plan seen.keys.length (.plain record)
    refine ⟨flow, unique (seen.alter record fun _ => ()) :: stages',
      seen.alter record fun _ => (), ?_, hseen.alter hfree _, by rw [hkeys, if_neg hmem], ?_, ?_⟩
    · simp [acceptAll, accept, hrecord, acceptUnique, hcontains, haccept]
    · rw [hkeys, List.length_append]
      exact hends
    · intro hmore
      rw [hkeys, List.length_append, hstages hmore]
      rfl

/-- The chain of a plan after some rows, none of which was the last that it wanted. -/
def HasTaken (plan : Plan) (rows : List (List Value × Record)) (stages : List Stage) : Prop :=
  if plan.holdsBack then
    (∃ reverse latest rest, stages = sorted reverse latest :: rest) ∨
      ∃ seen rest, stages = counted seen :: rest
  else
    match plan.distinct with
    | .yes => ∃ seen : Keyed Unit, seen.Lawful ∧ seen.keys = (rows.map Prod.snd).eraseDups ∧
        stages = unique seen :: limiting plan seen.keys.length
    | _ => stages = limiting plan rows.length

omit [Hashing] in
theorem hasTaken_ofPlan {plan : Plan} (hplain : plan.isAggregate = false) :
    HasTaken plan [] (ofPlan plan) := by
  rw [ofPlan_eq hplain]
  unfold HasTaken Plan.holdsBack distinction
  cases horder : plan.orderBy.isSome with
  | true => exact Or.inl ⟨_, _, _, rfl⟩
  | false =>
    cases hdistinct : plan.distinct with
    | no => rfl
    | yes => exact ⟨[], Keyed.lawful_nil, rfl, rfl⟩
    | counted => exact Or.inr ⟨_, _, rfl⟩

/-- A chain says that no more rows are wanted exactly with the row that fills it. -/
theorem HasTaken.acceptAll {plan : Plan} {rows : List (List Value × Record)}
    {stages : List Stage} (h : HasTaken plan rows stages) (hopen : plan.isFilledBy rows = false)
    {row : List Value × Record} (hfree : areFloatFree row.2) :
    ∃ flow stages', Stage.acceptAll (plan.outputRow row) stages = (.ok flow, stages') ∧
      flow.ends = plan.isFilledBy (rows ++ [row]) ∧
      (flow.ends = false → HasTaken plan (rows ++ [row]) stages') := by
  have hrecord : (plan.outputRow row).record = .ok row.2 := by
    unfold Plan.outputRow
    split <;> rfl
  unfold HasTaken at h ⊢
  unfold Plan.isFilledBy at hopen ⊢
  cases hholds : plan.holdsBack with
  | true =>
    rw [hholds, if_pos rfl] at h
    rcases h with ⟨reverse, latest, rest, rfl⟩ | ⟨seen, rest, rfl⟩
    · refine ⟨.kept, sorted reverse (((plan.outputRow row).key, row.2) :: latest) :: rest, ?_,
        rfl, fun _ => Or.inl ⟨_, _, _, rfl⟩⟩
      simp [Stage.acceptAll, accept, hrecord]
    · refine ⟨.kept, counted (seen.alter row.2 fun n => n.getD 0 + 1) :: rest, ?_, rfl,
        fun _ => Or.inr ⟨_, _, rfl⟩⟩
      simp [Stage.acceptAll, accept, hrecord]
  | false =>
    simp only [hholds, Bool.false_eq_true, if_false, Bool.not_false, Bool.true_and,
      List.map_append, List.map_cons, List.map_nil] at h hopen ⊢
    cases hdistinct : plan.distinct with
    | counted => simp [Plan.holdsBack, hdistinct] at hholds
    | no =>
      simp only [hdistinct, Distinct.select, List.length_map, List.length_append,
        List.length_singleton] at h hopen ⊢
      rw [h]
      exact acceptAll_limiting plan _ _
    | yes =>
      simp only [hdistinct, Distinct.select] at h hopen ⊢
      obtain ⟨seen, hseen, hkeys, rfl⟩ := h
      rw [← hkeys] at hopen
      obtain ⟨flow, stages', seen', haccept, hseen', hkeys', hends, hstages⟩ :=
        acceptAll_unique hseen hopen hrecord hfree
      have hrows : (rows.map Prod.snd ++ [row.2]).eraseDups = seen'.keys := by
        simp only [eraseDups_append_singleton, hkeys', hkeys, List.mem_eraseDups]
      rw [hrows]
      exact ⟨flow, stages', haccept, hends, fun hmore => ⟨seen', hseen', rfl, hstages hmore⟩⟩

end Stage

namespace Output

variable {σ : Type} [RecordSink σ] {sink : σ}

variable [Hashing]

/-- More rows are wanted unless the plan is filled by those that have been sent. -/
theorem passAll_demand (hsink : RecordSink.Willing sink) {plan : Plan}
    {before rows : List (List Value × Record)} {stages : List Stage}
    (hflat : ∀ stage ∈ stages, stage.isFlat) (htaken : Stage.HasTaken plan before stages)
    (hopen : plan.isFilledBy before = false) (hfree : ∀ row ∈ rows, areFloatFree row.2)
    {out : List Record} (hemits : Stage.EmitsAll stages (rows.map plan.outputRow) out)
    (written : List Record) :
    (passAll (rows.map plan.outputRow) stages (.after sink written)).1 =
      .ok (if plan.isFilledBy (before ++ rows) then .stop else .more) := by
  induction rows generalizing before stages out written with
  | nil => simp [passAll, hopen]
  | cons row rows ih =>
    obtain ⟨flow, stages', now, later, haccept, hnow, rfl, hflat', hlater, -⟩ :=
      Stage.acceptAll_spec hflat hemits
    -- What the chain writes and what it says of later rows are told by two invariants.
    obtain ⟨flow', stages'', haccept', hends, htaken'⟩ :=
      htaken.acceptAll hopen (hfree row List.mem_cons_self)
    rw [haccept, Prod.mk.injEq, Except.ok.injEq] at haccept'
    obtain ⟨rfl, rfl⟩ := haccept'
    have hpass : pass (plan.outputRow row) stages (.after sink written) =
        (.ok (if flow.ends then .stop else .more), stages', .after sink (written ++ now)) := by
      simp [pass, haccept, Outlet.receive_after hsink hnow]
    rw [List.map_cons, passAll, hpass, List.append_cons before row rows]
    cases hflow : flow.ends with
    | true =>
      rw [Plan.isFilledBy_append (by rw [← hends, hflow]) rows]
      rfl
    | false =>
      exact ih hflat' (htaken' hflow) (by rw [← hends, hflow])
        (fun other hother => hfree other (List.mem_cons_of_mem _ hother)) hlater _

end Output
end TableQuery
