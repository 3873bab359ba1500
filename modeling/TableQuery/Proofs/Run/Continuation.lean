import TableQuery.Proofs.Run.Withholding

/-!
# Inputs that go on

A plan whose stages let rows pass at once has written everything by the time its input ends,
and what it has written stays written.  If the input goes on, the records so far have been
taken in the same way, so that the run over the longer input writes the same records first,
whatever becomes of it later.
-/

namespace TableQuery

/-! ## Stages that hold nothing back -/

namespace Stage

/-- Whether a stage lets a row pass at once or never. -/
def isImmediate : Stage → Bool
  | unique _ => true
  | top _ _ => true
  | groups _ _ => false
  | sorted _ _ => false
  | counted _ => false

/-- There is nothing to take out of it. -/
theorem drain_of_isImmediate {stage : Stage} (h : stage.isImmediate) :
    stage.drain = (.ok [], stage) := by
  cases stage with
  | unique | top => rfl
  | groups | sorted | counted => cases h

/-- A plan that neither groups nor orders nor counts rows has a stage that tells rows apart,
if it is asked for, and a limit. -/
theorem cases_of_mem_ofPlan {plan : Plan} (hstreams : plan.waits = false) {stage : Stage}
    (hstage : stage ∈ ofPlan plan) :
    plan.distinct = .yes ∧ stage = unique [] ∨ ∃ limit, stage = top limit 0 := by
  obtain ⟨hplain, hholds⟩ : plan.isAggregate = false ∧ plan.holdsBack = false := by
    simpa [Plan.waits] using hstreams
  obtain ⟨horder, hdistinct⟩ : plan.orderBy = none ∧ plan.distinct ≠ .counted := by
    simpa [Plan.holdsBack] using hholds
  rw [ofPlan_eq hplain, horder, Option.isSome_none, if_neg Bool.false_ne_true, List.nil_append,
    List.mem_append] at hstage
  rcases hstage with hstage | hstage
  · unfold distinction at hstage
    cases hcase : plan.distinct with
    | no => simp [hcase] at hstage
    | yes =>
      rw [hcase] at hstage
      exact .inl ⟨rfl, List.mem_singleton.mp hstage⟩
    | counted => exact absurd hcase hdistinct
  · unfold limiting at hstage
    cases hcase : plan.limit with
    | none => simp [hcase] at hstage
    | some limit =>
      rw [hcase] at hstage
      exact .inr ⟨limit, List.mem_singleton.mp hstage⟩

theorem isImmediate_of_mem_ofPlan {plan : Plan} (hstreams : plan.waits = false) :
    ∀ stage ∈ ofPlan plan, stage.isImmediate := by
  intro stage hstage
  obtain ⟨-, rfl⟩ | ⟨limit, rfl⟩ := cases_of_mem_ofPlan hstreams hstage
  · rfl
  · rfl

variable [Hashing]

theorem Takes.isImmediate {stage stage' : Stage} {row : OutputRow}
    {outcome : Except DataFault Flow} (htakes : stage.Takes row outcome stage')
    (h : stage.isImmediate) : stage'.isImmediate := by
  cases htakes with
  | refused => exact h
  | seen | unseen | closed | last | below => rfl
  | beside | conflict | grouped | misfit | sorted | counted => cases h

theorem isImmediate_accept {stage : Stage} (h : stage.isImmediate) (row : OutputRow) :
    (stage.accept row).2.isImmediate :=
  (takes_accept stage row).isImmediate h

theorem isImmediate_acceptAll {stages : List Stage} (h : ∀ stage ∈ stages, stage.isImmediate)
    (row : OutputRow) : ∀ stage ∈ (acceptAll row stages).2, stage.isImmediate := by
  fun_induction acceptAll row stages with
  | case1 => exact h
  | case2 row stage stages row' stage' haccept outcome stages' hrest ih
  | case3 row stage stages row' stage' haccept outcome stages' hrest ih =>
    obtain ⟨hstage, hstages⟩ := List.forall_mem_cons.mp h
    have hstage' := isImmediate_accept hstage row
    have hstages' := ih hstages
    rw [haccept] at hstage'
    rw [hrest] at hstages'
    exact List.forall_mem_cons.mpr ⟨hstage', hstages'⟩
  | case4 row stage stages outcome stage' _ _ haccept =>
    obtain ⟨hstage, hstages⟩ := List.forall_mem_cons.mp h
    have hstage' := isImmediate_accept hstage row
    rw [haccept] at hstage'
    exact List.forall_mem_cons.mpr ⟨hstage', hstages⟩

end Stage

namespace Output

variable {σ : Type} [Hashing] [RecordSink σ]

theorem isImmediate_pass {stages : List Stage} (h : ∀ stage ∈ stages, stage.isImmediate)
    (row : OutputRow) (outlet : Outlet σ) :
    ∀ stage ∈ (pass row stages outlet).2.1, stage.isImmediate := by
  have haccepted := Stage.isImmediate_acceptAll h row
  unfold pass
  split
  all_goals
    rename_i haccept
    rw [haccept] at haccepted
    exact haccepted

theorem isImmediate_passAll {stages : List Stage} (h : ∀ stage ∈ stages, stage.isImmediate)
    (rows : List OutputRow) (outlet : Outlet σ) :
    ∀ stage ∈ (passAll rows stages outlet).2.1, stage.isImmediate := by
  induction rows generalizing stages outlet with
  | nil => exact h
  | cons row rows ih =>
    have hpassed := isImmediate_pass h row outlet
    unfold passAll
    split
    · next hpass =>
      rw [hpass] at hpassed
      exact ih hpassed _
    · exact hpassed

theorem isImmediate_writeAll {output : Output σ}
    (h : ∀ stage ∈ output.stages, stage.isImmediate) (rows : List OutputRow) :
    ∀ stage ∈ (output.writeAll rows).2.stages, stage.isImmediate :=
  isImmediate_passAll h rows output.outlet

theorem drainAll_of_isImmediate {stages : List Stage} (h : ∀ stage ∈ stages, stage.isImmediate)
    (outlet : Outlet σ) : drainAll stages outlet = (.ok (), stages, outlet) := by
  induction stages with
  | nil => rw [drainAll]
  | cons stage stages ih =>
    obtain ⟨hstage, hstages⟩ := List.forall_mem_cons.mp h
    rw [drainAll_cons, Stage.drain_of_isImmediate hstage]
    simp only [List.map_nil, passAll, ih hstages]

end Output

/-! ## Runs over inputs that go on -/

namespace Traced

variable {σ : Type} [RecordSink σ]

theorem records_extend {traced traced' : Traced σ} (h : RecordSink.Reaches traced traced') :
    traced.records <+: traced'.records := by
  obtain ⟨records, rfl⟩ := h
  rw [records_writeAll]
  exact List.prefix_append _ _

end Traced

namespace Plan

variable {σ σ' ρ τ : Type} [Hashing] [RecordSource σ] [RecordSource σ'] [RecordSource ρ]
  [RecordSink τ] {plan : Plan}

theorem reaches_takeRecord (plan : Plan) (index : Option JoinIndex) (number : Nat)
    (record : Record) (progress : Progress τ) :
    RecordSink.Reaches progress.output.outlet.sink
      (plan.takeRecord index number record progress).2.output.outlet.sink :=
  takeRecord_keeps
    (K := fun output => RecordSink.Reaches progress.output.outlet.sink output.outlet.sink)
    (fun output rows _ h => h.trans (output.reaches_writeAll rows)) (.refl _)

/-- Over more records, a plan writes more to the sink. -/
theorem reaches_streamed_of_extends (plan : Plan) (index : Option JoinIndex) {input : σ}
    {longer : σ'} (hinput : RecordSource.pulled input <+: RecordSource.pulled longer) (sink : τ) :
    RecordSink.Reaches (plan.streamed index input sink).state.output.outlet.sink
      (plan.streamed index longer sink).state.output.outlet.sink :=
  feed_extends (R := fun progress progress' : Progress τ =>
      RecordSink.Reaches progress.output.outlet.sink progress'.output.outlet.sink)
    (fun _ => .refl _) .trans (plan.reaches_takeRecord index) hinput 1 _

omit [RecordSource ρ] in
/-- If no stage holds anything back, the end of a run adds nothing to what has been written. -/
theorem records_stream (hstreams : plan.waits = false) (index : Option JoinIndex)
    (rest : Option ρ) (input : σ) (sink : Traced τ) :
    (plan.stream index rest input sink).sink.records =
      (plan.streamed index input sink).state.output.outlet.sink.records := by
  cases houtcome : (plan.streamed index input sink).outcome with
  | error e => rw [stream_of_error houtcome, Traced.records_finish]
  | ok demand =>
    have himmediate : ∀ stage ∈ (plan.streamed index input sink).state.output.stages,
        stage.isImmediate :=
      streamed_keeps (K := fun output => ∀ stage ∈ output.stages, stage.isImmediate)
        (fun _ _ _ rows _ h => Output.isImmediate_writeAll h rows) input
        (Stage.isImmediate_of_mem_ofPlan hstreams)
    obtain ⟨hended, -⟩ := stream_of_ok houtcome rest
    rw [hended, Traced.records_finish, Output.drainAll_of_isImmediate himmediate]

/-- A run writes over a longer input what it writes over a shorter one, and possibly more
behind it, however the two runs end. -/
theorem records_run_extend (hstreams : plan.waits = false) {input : σ} {longer : σ'}
    (hinput : RecordSource.pulled input <+: RecordSource.pulled longer) (join : Option ρ)
    (sink : Traced τ) :
    (plan.run input join sink).sink.records <+: (plan.run longer join sink).sink.records := by
  by_cases hjoins : ∃ index, plan.JoinsBy join index
  · obtain ⟨index, hindex⟩ := hjoins
    obtain ⟨rest, hrun⟩ := exists_run_eq_stream hindex input sink
    obtain ⟨rest', hrun'⟩ := exists_run_eq_stream hindex longer sink
    rw [hrun, hrun', records_stream hstreams, records_stream hstreams]
    exact Traced.records_extend (reaches_streamed_of_extends plan index hinput _)
  · apply Traced.records_extend
    rw [(run_of_not_joinsBy hjoins input _).1, (run_of_not_joinsBy hjoins longer _).1]
    exact .refl _

end Plan
end TableQuery
