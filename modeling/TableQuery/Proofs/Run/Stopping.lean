import TableQuery.Proofs.Run.Emission

/-!
# The end of the demand

An output wants no more rows when its sink has refused one or when a limit has been
reached.  A sink that has refused is left alone, and a limit is the last stage of a chain,
so that nothing gets past it any more.  In both cases nothing that is sent reaches the
sink, be it from the input or from stages that are emptied.
-/

namespace TableQuery

/-! ## What an outlet keeps -/

section Keeping

variable {σ : Type} [RecordSink σ] {Holds : Outlet σ → Prop}

namespace Outlet

theorem receive_keeps (hwrite : ∀ outlet row, Holds outlet → Holds (outlet.write row).2)
    {outlet : Outlet σ} (h : Holds outlet) (flow : Flow) : Holds (outlet.receive flow).2 := by
  cases flow with
  | forward row => exact hwrite outlet row h
  | last row => exact hwrite outlet row h
  | kept => exact h
  | closed => exact h

/-- An outlet to a sink that has refused a record is left alone. -/
theorem write_of_full {outlet : Outlet σ} (hfull : outlet.full) (row : OutputRow) :
    outlet.write row = (.ok .stop, outlet) := by
  rw [write, if_pos hfull]

/-- It is therefore kept as it is. -/
theorem write_keeps_of_full {outlet : Outlet σ} (hfull : outlet.full) (other : Outlet σ)
    (row : OutputRow) (heq : other = outlet) : (other.write row).2 = outlet := by
  rw [heq, write_of_full hfull]

/-- What becomes of a row before an open outlet. -/
theorem write_cases {outlet : Outlet σ} (hopen : outlet.full = false) (row : OutputRow) :
    (∃ fault, row.record = .error fault ∧ outlet.write row = (.error (.data fault), outlet)) ∨
    (∃ record e sink, row.record = .ok record ∧
      RecordSink.write record outlet.sink = (.error e, sink) ∧
      outlet.write row = (.error (.table e), { outlet with sink })) ∨
    ∃ record demand sink, row.record = .ok record ∧
      RecordSink.write record outlet.sink = (.ok demand, sink) ∧
      outlet.write row = (.ok demand, ⟨sink, demand = .stop, outlet.written + 1⟩) := by
  cases hrecord : row.record with
  | error fault => exact .inl ⟨fault, rfl, by simp [write, hopen, hrecord]⟩
  | ok record =>
    rcases hwrite : RecordSink.write record outlet.sink with ⟨e | demand, sink⟩
    · exact .inr (.inl ⟨record, e, sink, rfl, hwrite, by simp [write, hopen, hrecord, hwrite]⟩)
    · exact .inr (.inr ⟨record, demand, sink, rfl, hwrite,
        by simp [write, hopen, hrecord, hwrite]⟩)

/-- A sink that wants no more records has refused one. -/
theorem full_of_write_eq_stop {outlet outlet' : Outlet σ} {row : OutputRow}
    (hwrite : outlet.write row = (.ok .stop, outlet')) : outlet'.full := by
  cases hfull : outlet.full with
  | true =>
    rw [write_of_full hfull] at hwrite
    cases hwrite
    exact hfull
  | false =>
    obtain ⟨fault, -, heq⟩ | ⟨record, e, sink, -, -, heq⟩ | ⟨record, demand, sink, -, -, heq⟩ :=
      write_cases hfull row
    all_goals
      rw [heq] at hwrite
      cases hwrite
    rfl

/-- An outlet to a sink whose output has been ended. -/
def ended (outlet : Outlet σ) : Outlet σ :=
  { outlet with sink := (RecordSink.finish outlet.sink).2 }

end Outlet

/-- A chain is emptied from front to back, while the stages behind the first one change but
stay as many. -/
theorem Stage.chain_induction {motive : List Stage → Prop} (nil : motive [])
    (cons : ∀ stage stages, (∀ stages', stages'.length = stages.length → motive stages') →
      motive (stage :: stages)) (stages : List Stage) : motive stages := by
  generalize hlength : stages.length = n
  induction n generalizing stages with
  | zero =>
    obtain rfl : stages = [] := List.length_eq_zero_iff.mp hlength
    exact nil
  | succ n ih =>
    obtain ⟨stage, stages, rfl⟩ := List.exists_cons_of_length_eq_add_one hlength
    exact cons stage stages fun stages' hsame =>
      ih stages' (hsame.trans (Nat.succ.inj hlength))

namespace Output

variable [Hashing]

theorem pass_keeps (hwrite : ∀ outlet row, Holds outlet → Holds (outlet.write row).2)
    {outlet : Outlet σ} (h : Holds outlet) (row : OutputRow) (stages : List Stage) :
    Holds (pass row stages outlet).2.2 := by
  unfold pass
  split
  · exact h
  · exact Outlet.receive_keeps hwrite h _

theorem passAll_keeps (hwrite : ∀ outlet row, Holds outlet → Holds (outlet.write row).2)
    {outlet : Outlet σ} (h : Holds outlet) (rows : List OutputRow) (stages : List Stage) :
    Holds (passAll rows stages outlet).2.2 := by
  induction rows generalizing stages outlet with
  | nil => exact h
  | cons row rows ih =>
    have hpass := pass_keeps hwrite h row stages
    unfold passAll
    split
    · next heq =>
      rw [heq] at hpass
      exact ih hpass _
    · exact hpass

/-- What holds once the first row has passed holds once all have. -/
theorem passAll_cons_keeps
    (hwrite : ∀ outlet row, Holds outlet → Holds (outlet.write row).2) {outlet : Outlet σ}
    {row : OutputRow} {stages : List Stage} (h : Holds (pass row stages outlet).2.2)
    (rows : List OutputRow) : Holds (passAll (row :: rows) stages outlet).2.2 := by
  unfold passAll
  split
  · next heq =>
    rw [heq] at h
    exact passAll_keeps hwrite h rows _
  · exact h

/-- Emptying a chain: what the first stage has held back passes through the others, which
are emptied then. -/
theorem drainAll_cons (stage : Stage) (stages : List Stage) (outlet : Outlet σ) :
    drainAll (stage :: stages) outlet =
      match stage.drain with
      | (.error fault, stage) => (.error (.data fault), stage :: stages, outlet)
      | (.ok records, stage) =>
        match passAll (records.map OutputRow.plain) stages outlet with
        | (.error e, stages, outlet) => (.error e, stage :: stages, outlet)
        | (.ok _, stages, outlet) =>
          let (outcome, stages, outlet) := drainAll stages outlet
          (outcome, stage :: stages, outlet) := by
  rw [drainAll]
  rcases stage.drain with ⟨fault | records, stage'⟩
  · rfl
  · dsimp only
    rcases passAll (records.map OutputRow.plain) stages outlet with
      ⟨e | demand, stages', outlet'⟩
    · rfl
    · rfl

theorem drainAll_keeps (hwrite : ∀ outlet row, Holds outlet → Holds (outlet.write row).2)
    {outlet : Outlet σ} (h : Holds outlet) (stages : List Stage) :
    Holds (drainAll stages outlet).2.2 := by
  induction stages using Stage.chain_induction generalizing outlet with
  | nil =>
    rw [drainAll]
    exact h
  | cons stage stages ih =>
    rw [drainAll_cons]
    rcases stage.drain with ⟨fault | records, stage'⟩
    · exact h
    · have hpassed := passAll_keeps hwrite h (records.map OutputRow.plain) stages
      have hstages := length_passAll (records.map OutputRow.plain) stages outlet
      rcases hresult : passAll (records.map OutputRow.plain) stages outlet with
        ⟨e | demand, stages', outlet'⟩
      all_goals
        rw [hresult] at hpassed hstages
        simp only [hresult]
      · exact hpassed
      · exact ih stages' hstages hpassed

/-- What holds once the first stage has been emptied holds once all have. -/
theorem drainAll_cons_keeps
    (hwrite : ∀ outlet row, Holds outlet → Holds (outlet.write row).2) {outlet : Outlet σ}
    {stage stage' : Stage} {stages : List Stage} {records : List Record}
    (hdrain : stage.drain = (.ok records, stage'))
    (h : Holds (passAll (records.map OutputRow.plain) stages outlet).2.2) :
    Holds (drainAll (stage :: stages) outlet).2.2 := by
  rw [drainAll_cons, hdrain]
  rcases hresult : passAll (records.map OutputRow.plain) stages outlet with
    ⟨e | demand, stages', outlet'⟩
  all_goals
    rw [hresult] at h
    simp only [hresult]
  · exact h
  · exact drainAll_keeps hwrite h stages'

end Output

end Keeping

/-! ## Limits that have been reached -/

namespace Stage

/-- Whether a stage is a limit. -/
def isLimit : Stage → Bool
  | top _ _ => true
  | _ => false

/-- Whether a stage is a limit that has been reached. -/
def isSpent : Stage → Bool
  | top limit passed => limit ≤ passed
  | _ => false

variable [Hashing]

theorem Takes.isLimit_eq {stage stage' : Stage} {row : OutputRow}
    {outcome : Except DataFault Flow} (h : stage.Takes row outcome stage') :
    stage'.isLimit = stage.isLimit := by
  cases h <;> rfl

/-- A stage stays a limit, or not one. -/
theorem isLimit_accept (stage : Stage) (row : OutputRow) :
    (stage.accept row).2.isLimit = stage.isLimit :=
  (takes_accept stage row).isLimit_eq

theorem Takes.isSpent_of_ends {stage stage' : Stage} {row : OutputRow} {flow : Flow}
    (h : stage.Takes row (.ok flow) stage') (hends : flow.ends) : stage'.isSpent := by
  cases h with
  | closed _ hlimit => exact decide_eq_true hlimit
  | last _ hlimit => exact decide_eq_true (Nat.le_of_eq hlimit.symm)
  | beside | grouped | sorted | seen | unseen | counted | below => cases hends

/-- A stage that says that no later row will pass is a limit that has been reached. -/
theorem isSpent_accept_of_ends (stage : Stage) (row : OutputRow) :
    ∀ flow, (stage.accept row).1 = .ok flow → flow.ends → (stage.accept row).2.isSpent := by
  intro flow hflow
  have htakes := takes_accept stage row
  rw [hflow] at htakes
  exact htakes.isSpent_of_ends

omit [Hashing] in
theorem isLimit_of_isSpent {stage : Stage} (h : stage.isSpent) : stage.isLimit := by
  cases stage with
  | top limit passed => rfl
  | groups | sorted | unique | counted => exact absurd h Bool.false_ne_true

/-- A limit that has been reached lets no row pass and stays as it is. -/
theorem accept_of_isSpent {stage : Stage} (h : stage.isSpent) (row : OutputRow) :
    stage.accept row = (.ok .closed, stage) := by
  cases stage with
  | top limit passed =>
    have hspent : limit ≤ passed := of_decide_eq_true h
    simp [accept, acceptTop, hspent]
  | groups | sorted | unique | counted => exact absurd h Bool.false_ne_true

omit [Hashing] in
theorem drain_of_isSpent {stage : Stage} (h : stage.isSpent) : stage.drain = (.ok [], stage) := by
  cases stage with
  | top limit passed => rfl
  | groups | sorted | unique | counted => exact absurd h Bool.false_ne_true

/-- No stage but the last one is a limit. -/
def LimitsLast (stages : List Stage) : Prop :=
  true ∉ (stages.map isLimit).dropLast

/-- The last stage is a limit that has been reached. -/
def LastIsSpent : List Stage → Prop
  | [] => False
  | stage :: stages => stage.isSpent ∧ stages = [] ∨ LastIsSpent stages

omit [Hashing] in
theorem limitsLast_cons_iff {stage : Stage} {stages : List Stage} :
    LimitsLast (stage :: stages) ↔ (stage.isLimit → stages = []) ∧ LimitsLast stages := by
  cases stages with
  | nil => simp [LimitsLast]
  | cons next stages =>
    simp only [LimitsLast, List.map_cons, List.dropLast_cons_cons]
    cases stage.isLimit <;> simp

omit [Hashing] in
theorem limitsLast_ofPlan (plan : Plan) : LimitsLast (ofPlan plan) := by
  unfold ofPlan
  cases plan.isAggregate <;> cases plan.orderBy <;> cases plan.distinct <;> cases plan.limit <;>
    simp [LimitsLast, isLimit]

/-- A chain keeps its limits in their places. -/
theorem map_isLimit_acceptAll (row : OutputRow) (stages : List Stage) :
    (acceptAll row stages).2.map isLimit = stages.map isLimit := by
  have hstage := isLimit_accept
  fun_induction acceptAll row stages <;> grind

/-- Once a chain has said that no later row will pass, its last stage is spent. -/
theorem lastIsSpent_acceptAll_of_ends (row : OutputRow) {stages : List Stage}
    (h : LimitsLast stages) :
    ∀ flow, (acceptAll row stages).1 = .ok flow → flow.ends →
      LastIsSpent (acceptAll row stages).2 := by
  have hlength := Output.length_acceptAll
  have hspent := isSpent_accept_of_ends
  have hlimit := isLimit_accept
  fun_induction acceptAll row stages with
  | case1 row => grind [Flow.ends]
  | case2 row stage stages row' stage' haccept outcome stages' hrest ih =>
    rw [limitsLast_cons_iff] at h
    grind [LastIsSpent]
  | case3 row stage stages row' stage' haccept outcome stages' hrest ih =>
    rw [limitsLast_cons_iff] at h
    grind [LastIsSpent, isLimit_of_isSpent, Flow.ends]
  | case4 row stage stages outcome stage' _ _ haccept =>
    rw [limitsLast_cons_iff] at h
    grind [LastIsSpent, isLimit_of_isSpent]

/-- Nothing gets past a last stage that is spent, which it then remains. -/
theorem lastIsSpent_acceptAll (row : OutputRow) {stages : List Stage} (h : LastIsSpent stages) :
    LastIsSpent (acceptAll row stages).2 ∧
      ∀ flow, (acceptAll row stages).1 = .ok flow → flow.rows = [] := by
  fun_induction acceptAll row stages with
  | case1 row => exact h.elim
  | case2 row stage stages row' stage' haccept outcome stages' hrest ih =>
    obtain ⟨hspent, -⟩ | h := h
    · rw [accept_of_isSpent hspent] at haccept
      cases haccept
    · rw [hrest] at ih
      obtain ⟨hlast, hrows⟩ := ih h
      exact ⟨.inr hlast, hrows⟩
  | case3 row stage stages row' stage' haccept outcome stages' hrest ih =>
    obtain ⟨hspent, -⟩ | h := h
    · rw [accept_of_isSpent hspent] at haccept
      cases haccept
    · rw [hrest] at ih
      obtain ⟨hlast, hrows⟩ := ih h
      refine ⟨.inr hlast, fun flow hflow => ?_⟩
      obtain ⟨passed, hpassed, rfl⟩ := map_eq_ok_iff.mp hflow
      rw [Flow.rows_asLast]
      exact hrows passed hpassed
  | case4 row stage stages outcome stage' hforward hlast haccept =>
    obtain ⟨hspent, rfl⟩ | h := h
    · rw [accept_of_isSpent hspent] at haccept
      cases haccept
      exact ⟨.inl ⟨hspent, rfl⟩, fun flow hflow => by cases hflow; rfl⟩
    · refine ⟨.inr h, fun flow hflow => ?_⟩
      cases flow with
      | forward row => exact (hforward row hflow).elim
      | last row => exact (hlast row hflow).elim
      | kept | closed => rfl

end Stage

/-! ## The end of the demand -/

namespace Output

variable {σ : Type} [RecordSink σ]

variable [Hashing]

/-- Sends rows to the sink one by one, also when no more are wanted or one has failed. -/
def sendAll (output : Output σ) (rows : List OutputRow) : Output σ :=
  rows.foldl (fun output row => (output.write row).2) output

theorem sendAll_append (output : Output σ) (rows more : List OutputRow) :
    output.sendAll (rows ++ more) = (output.sendAll rows).sendAll more :=
  List.foldl_append

theorem sendAll_keeps {Holds : Outlet σ → Prop}
    (hwrite : ∀ outlet row, Holds outlet → Holds (outlet.write row).2) {output : Output σ}
    (h : Holds output.outlet) (rows : List OutputRow) : Holds (output.sendAll rows).outlet := by
  induction rows generalizing output with
  | nil => exact h
  | cons row rows ih =>
    have hnext : Holds (output.write row).2.outlet := pass_keeps hwrite h row output.stages
    exact ih hnext

/-- Nothing that is sent reaches the sink any more: it has refused a record, or a limit in
the last place has been reached. -/
def IsSettled (output : Output σ) : Prop :=
  output.outlet.full ∨ Stage.LastIsSpent output.stages

/-- The way of a row through a chain with a spent last stage ends before the sink. -/
theorem pass_of_lastIsSpent {stages : List Stage} (h : Stage.LastIsSpent stages)
    (row : OutputRow) (outlet : Outlet σ) :
    (pass row stages outlet).2.2 = outlet ∧ Stage.LastIsSpent (pass row stages outlet).2.1 := by
  obtain ⟨hlast, hrows⟩ := Stage.lastIsSpent_acceptAll row h
  unfold pass
  rcases haccept : Stage.acceptAll row stages with ⟨fault | flow, stages'⟩
  all_goals rw [haccept] at hlast hrows
  · exact ⟨rfl, hlast⟩
  · have hnone := hrows flow rfl
    cases flow with
    | forward row | last row => cases hnone
    | kept | closed => exact ⟨rfl, hlast⟩

theorem passAll_of_lastIsSpent {stages : List Stage} (h : Stage.LastIsSpent stages)
    (rows : List OutputRow) (outlet : Outlet σ) :
    (passAll rows stages outlet).2.2 = outlet ∧
      Stage.LastIsSpent (passAll rows stages outlet).2.1 := by
  induction rows generalizing stages with
  | nil => exact ⟨rfl, h⟩
  | cons row rows ih =>
    obtain ⟨houtlet, hlast⟩ := pass_of_lastIsSpent h row outlet
    unfold passAll
    split
    · next stages' outlet' heq =>
      rw [heq] at houtlet hlast
      obtain rfl : outlet' = outlet := houtlet
      exact ih hlast
    · exact ⟨houtlet, hlast⟩

theorem drainAll_of_lastIsSpent {stages : List Stage} (h : Stage.LastIsSpent stages)
    (outlet : Outlet σ) : (drainAll stages outlet).2.2 = outlet := by
  induction stages using Stage.chain_induction generalizing outlet with
  | nil => exact h.elim
  | cons stage stages ih =>
    rw [drainAll_cons]
    obtain ⟨hspent, rfl⟩ | h := h
    · simp [Stage.drain_of_isSpent hspent, passAll, drainAll]
    · rcases stage.drain with ⟨fault | records, stage'⟩
      · rfl
      · obtain ⟨houtlet, hlast⟩ :=
          passAll_of_lastIsSpent h (records.map OutputRow.plain) outlet
        have hstages := length_passAll (records.map OutputRow.plain) stages outlet
        rcases hresult : passAll (records.map OutputRow.plain) stages outlet with
          ⟨e | demand, stages', outlet'⟩
        all_goals
          rw [hresult] at houtlet hlast hstages
          simp only [hresult]
        · exact houtlet
        · exact (ih stages' hstages hlast outlet').trans houtlet

/-- A row that is sent to a settled output does not change what is behind the stages. -/
theorem write_of_isSettled {output : Output σ} (h : output.IsSettled) (row : OutputRow) :
    (output.write row).2.outlet = output.outlet ∧ (output.write row).2.IsSettled := by
  obtain hfull | hspent := h
  · have houtlet : (output.write row).2.outlet = output.outlet :=
      pass_keeps (Outlet.write_keeps_of_full hfull) rfl row output.stages
    exact ⟨houtlet, .inl (houtlet ▸ hfull)⟩
  · obtain ⟨houtlet, hlast⟩ := pass_of_lastIsSpent hspent row output.outlet
    exact ⟨houtlet, .inr hlast⟩

theorem drainAll_of_isSettled {output : Output σ} (h : output.IsSettled) :
    (drainAll output.stages output.outlet).2.2 = output.outlet := by
  obtain hfull | hspent := h
  · exact drainAll_keeps (Outlet.write_keeps_of_full hfull) rfl output.stages
  · exact drainAll_of_lastIsSpent hspent output.outlet

theorem sendAll_of_isSettled {output : Output σ} (h : output.IsSettled)
    (rows : List OutputRow) :
    (output.sendAll rows).outlet = output.outlet ∧ (output.sendAll rows).IsSettled := by
  induction rows generalizing output with
  | nil => exact ⟨rfl, h⟩
  | cons row rows ih =>
    obtain ⟨houtlet, hsettled⟩ := write_of_isSettled h row
    obtain ⟨houtlet', hsettled'⟩ := ih hsettled
    exact ⟨houtlet'.trans houtlet, hsettled'⟩

theorem finished_sendAll (output : Output σ) (rows : List OutputRow) :
    (output.sendAll rows).finished = output.finished := by
  induction rows generalizing output with
  | nil => rfl
  | cons row rows ih => exact ih (output.write row).2

/-- Ending the output empties the stages and ends the output of the sink. -/
theorem outlet_finish {output : Output σ} (h : output.finished = false) :
    output.finish.2.outlet = (drainAll output.stages output.outlet).2.2.ended := by
  simp [finish, h, finishSink, Outlet.ended]

theorem finished_finish (output : Output σ) : output.finish.2.finished := by
  unfold finish
  split
  · assumption
  · rfl

/-- An output is ended once, however often it is ended. -/
theorem repeat_finish (output : Output σ) (n : Nat) :
    Nat.repeat (fun output => output.finish.2) (n + 1) output = output.finish.2 := by
  induction n with
  | zero => rfl
  | succ n ih =>
    rw [Nat.repeat, ih, finish, if_pos (finished_finish output)]

/-- What has been sent to a settled output makes no difference when it is ended. -/
theorem finish_sendAll_of_isSettled {output : Output σ} (h : output.IsSettled)
    (hfinished : output.finished = false) (rows : List OutputRow) :
    (output.sendAll rows).finish.2.outlet = output.finish.2.outlet := by
  obtain ⟨houtlet, hsettled⟩ := sendAll_of_isSettled h rows
  have hfinished' := (finished_sendAll output rows).trans hfinished
  rw [outlet_finish hfinished, outlet_finish hfinished', drainAll_of_isSettled hsettled,
    drainAll_of_isSettled h, houtlet]

/-- An output with its limit in the last place is settled once no more rows are wanted. -/
theorem isSettled_of_write_eq_stop {output stopped : Output σ}
    (hlast : Stage.LimitsLast output.stages) {row : OutputRow}
    (hwrite : output.write row = (.ok .stop, stopped)) : stopped.IsSettled := by
  have hspent := Stage.lastIsSpent_acceptAll_of_ends row hlast
  unfold write pass at hwrite
  rcases haccept : Stage.acceptAll row output.stages with ⟨fault | flow, stages'⟩
  all_goals rw [haccept] at hwrite hspent
  · cases hwrite
  · cases flow with
    | forward row =>
      have hstop : (output.outlet.write row).1 = .ok .stop := congrArg Prod.fst hwrite
      have hstopped : (output.outlet.write row).2 = stopped.outlet :=
        congrArg (fun result => result.2.outlet) hwrite
      exact .inl (Outlet.full_of_write_eq_stop (Prod.ext hstop hstopped))
    | kept => cases hwrite
    | last row | closed =>
      have hstages : stages' = stopped.stages := congrArg (fun result => result.2.stages) hwrite
      exact .inr (hstages ▸ hspent _ rfl rfl)

theorem limitsLast_sendAll {output : Output σ} (h : Stage.LimitsLast output.stages)
    (rows : List OutputRow) : Stage.LimitsLast (output.sendAll rows).stages := by
  induction rows generalizing output with
  | nil => exact h
  | cons row rows ih =>
    have hmap : (output.write row).2.stages.map Stage.isLimit =
        output.stages.map Stage.isLimit := by
      rw [← Stage.map_isLimit_acceptAll row output.stages]
      unfold write pass
      rcases Stage.acceptAll row output.stages with ⟨fault | flow, stages'⟩ <;> rfl
    have hnext : Stage.LimitsLast (output.write row).2.stages := by
      rw [Stage.LimitsLast, hmap]
      exact h
    exact ih hnext

end Output

end TableQuery
