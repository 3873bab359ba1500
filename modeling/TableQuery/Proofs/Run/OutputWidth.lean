import TableQuery.Proofs.Run.RowWidth
import TableQuery.Proofs.Run.Stages
import TableQuery.Proofs.Run.Stopping

/-!
# The number of fields of output records

Every stage of the output keeps the number of fields of the rows, except the one that puts
the count of equal rows in front.  So all records that reach the sink have the same number of
fields, be they passed on at once or held back until the end.
-/

namespace TableQuery

/-! ## Stages -/

namespace Stage

/-- A stage that takes rows with `n` fields, and lets rows with `m` fields through. -/
def Carries (n m : Nat) : Stage → Prop
  | groups held _ => m = n ∧ held.IsWide n
  | sorted _ latest => m = n ∧ ∀ entry ∈ latest, entry.2.length = n
  | unique _ => m = n
  | counted seen => m = n + 1 ∧ ∀ entry ∈ seen, entry.1.length = n
  | top _ _ => m = n

variable {n m : Nat} {stage : Stage}

/-- What passes a stage has the number of fields that the stage lets through. -/
theorem Carries.takes [Hashing] (h : stage.Carries n m) {row : OutputRow} (hrow : row.IsWide n)
    {outcome : Except DataFault Flow} {stage' : Stage} (htakes : stage.Takes row outcome stage') :
    stage'.Carries n m ∧
      ∀ flow, outcome = .ok flow → ∀ passed ∈ flow.rows, passed.IsWide m := by
  cases htakes with
  | conflict | refused => exact ⟨h, nofun⟩
  | beside =>
    obtain ⟨rfl, hheld⟩ := h
    refine ⟨⟨rfl, hheld⟩, ?_⟩
    rintro flow ⟨⟩
    exact List.forall_mem_singleton.mpr hrow
  | misfit hfeed =>
    obtain ⟨rfl, hheld⟩ := h
    have hfed := hheld.feed hrow
    rw [hfeed] at hfed
    exact ⟨⟨rfl, hfed⟩, nofun⟩
  | grouped hfeed =>
    obtain ⟨rfl, hheld⟩ := h
    have hfed := hheld.feed hrow
    rw [hfeed] at hfed
    refine ⟨⟨rfl, hfed⟩, ?_⟩
    rintro flow ⟨⟩
    exact List.forall_mem_nil _
  | sorted reverse latest hrecord =>
    obtain ⟨rfl, hlatest⟩ := h
    refine ⟨⟨rfl, List.forall_mem_cons.mpr ⟨hrow.length_record hrecord, hlatest⟩⟩, ?_⟩
    rintro flow ⟨⟩
    exact List.forall_mem_nil _
  | seen hrecord _ =>
    refine ⟨h, ?_⟩
    rintro flow ⟨⟩
    exact List.forall_mem_nil _
  | unseen hrecord _ =>
    obtain rfl := h
    refine ⟨rfl, ?_⟩
    rintro flow ⟨⟩
    exact List.forall_mem_singleton.mpr (hrow.length_record hrecord)
  | counted seen hrecord =>
    obtain ⟨rfl, hseen⟩ := h
    refine ⟨⟨rfl, Keyed.forall_mem_alter (P := fun entry => entry.1.length = n) _
      (hrow.length_record hrecord) (fun _ _ hk => hk) hseen⟩, ?_⟩
    rintro flow ⟨⟩
    exact List.forall_mem_nil _
  | closed =>
    refine ⟨h, ?_⟩
    rintro flow ⟨⟩
    exact List.forall_mem_nil _
  | last | below =>
    obtain rfl := h
    refine ⟨rfl, ?_⟩
    rintro flow ⟨⟩
    exact List.forall_mem_singleton.mpr hrow

theorem Carries.accept [Hashing] (h : stage.Carries n m) {row : OutputRow} (hrow : row.IsWide n) :
    (stage.accept row).2.Carries n m ∧
      ∀ flow, (stage.accept row).1 = .ok flow → ∀ passed ∈ flow.rows, passed.IsWide m :=
  h.takes hrow (takes_accept stage row)

/-- So do the records that a stage has held back. -/
theorem Carries.drain (h : stage.Carries n m) {records : List Record}
    (hdrain : stage.drain.1 = .ok records) : ∀ record ∈ records, record.length = m := by
  cases stage with
  | groups held conflict =>
    obtain ⟨rfl, hheld⟩ := h
    exact hheld.finish hdrain
  | sorted reverse latest =>
    obtain ⟨rfl, hlatest⟩ := h
    cases hdrain
    refine List.forall_mem_map.mpr fun entry hentry => hlatest entry ?_
    exact List.mem_reverse.mp (List.mem_mergeSort.mp hentry)
  | counted seen =>
    obtain ⟨rfl, hseen⟩ := h
    cases hdrain
    exact List.forall_mem_map.mpr fun entry hentry => congrArg (· + 1) (hseen entry hentry)
  | unique | top =>
    cases hdrain
    exact List.forall_mem_nil _

/-- A chain of stages that takes rows with `n` fields, and lets rows with `m` fields
through. -/
def CarryAll (n m : Nat) : List Stage → Prop
  | [] => m = n
  | stage :: stages => ∃ between, stage.Carries n between ∧ CarryAll between m stages

theorem carryAll_append {k : Nat} {front back : List Stage} (hfront : CarryAll n k front)
    (hback : CarryAll k m back) : CarryAll n m (front ++ back) := by
  induction front generalizing n with
  | nil =>
    obtain rfl : k = n := hfront
    exact hback
  | cons stage front ih =>
    obtain ⟨between, hstage, hfront⟩ := hfront
    exact ⟨between, hstage, ih hfront⟩

/-- A row passes a chain as it passes its stages. -/
theorem CarryAll.acceptAll [Hashing] {stages : List Stage} (h : CarryAll n m stages)
    {row : OutputRow} (hrow : row.IsWide n) :
    CarryAll n m (Stage.acceptAll row stages).2 ∧
      ∀ flow, (Stage.acceptAll row stages).1 = .ok flow →
        ∀ passed ∈ flow.rows, passed.IsWide m := by
  fun_induction Stage.acceptAll row stages generalizing n with
  | case1 row =>
    obtain rfl : m = n := h
    refine ⟨rfl, ?_⟩
    rintro flow ⟨⟩
    exact List.forall_mem_singleton.mpr hrow
  | case2 row stage stages row' stage' haccept outcome stages' hrest ih =>
    obtain ⟨between, hstage, hstages⟩ := h
    obtain ⟨hstage', hpassed⟩ := hstage.accept hrow
    rw [haccept] at hstage' hpassed
    obtain ⟨hstages', hflow⟩ := ih hstages (hpassed _ rfl row' List.mem_cons_self)
    rw [hrest] at hstages' hflow
    exact ⟨⟨between, hstage', hstages'⟩, hflow⟩
  | case3 row stage stages row' stage' haccept outcome stages' hrest ih =>
    obtain ⟨between, hstage, hstages⟩ := h
    obtain ⟨hstage', hpassed⟩ := hstage.accept hrow
    rw [haccept] at hstage' hpassed
    obtain ⟨hstages', hflow⟩ := ih hstages (hpassed _ rfl row' List.mem_cons_self)
    rw [hrest] at hstages' hflow
    refine ⟨⟨between, hstage', hstages'⟩, fun flow hlast => ?_⟩
    obtain ⟨passed, houtcome, rfl⟩ := map_eq_ok_iff.mp hlast
    rw [Flow.rows_asLast]
    exact hflow passed houtcome
  | case4 row stage stages outcome stage' hforward hlast haccept =>
    obtain ⟨between, hstage, hstages⟩ := h
    obtain ⟨hstage', -⟩ := hstage.accept hrow
    rw [haccept] at hstage'
    refine ⟨⟨between, hstage', hstages⟩, fun flow hflow => ?_⟩
    cases flow with
    | forward row => exact (hforward row hflow).elim
    | last row => exact (hlast row hflow).elim
    | kept | closed => exact List.forall_mem_nil _

theorem carryAll_ite {condition : Bool} (h : stage.Carries n n) :
    CarryAll n n (if condition then [stage] else []) := by
  cases condition with
  | true => exact ⟨n, h, rfl⟩
  | false => exact rfl

theorem carryAll_distinction (plan : Plan) (n : Nat) :
    CarryAll n (n + if plan.distinct = .counted then 1 else 0) (distinction plan) := by
  unfold distinction
  cases plan.distinct with
  | no => exact rfl
  | yes => exact ⟨n, rfl, rfl⟩
  | counted => exact ⟨n + 1, ⟨rfl, List.forall_mem_nil _⟩, rfl⟩

theorem carryAll_limiting (plan : Plan) (n passed : Nat) : CarryAll n n (limiting plan passed) := by
  unfold limiting
  cases plan.limit with
  | none => exact rfl
  | some limit => exact ⟨n, rfl, rfl⟩

/-- The stages of a plan keep the number of fields, but for the count of equal rows. -/
theorem carryAll_ofPlan (plan : Plan) (n : Nat) :
    CarryAll n (n + if plan.distinct = .counted then 1 else 0) (ofPlan plan) := by
  have hgrouping : ∀ conflict, CarryAll n n
      (if plan.isAggregate then [groups .empty conflict] else []) :=
    fun conflict => carryAll_ite ⟨rfl, Groups.isWide_empty n⟩
  have hsorting : CarryAll n n (if plan.orderBy.isSome then [sorted plan.reverse []] else []) :=
    carryAll_ite ⟨rfl, List.forall_mem_nil _⟩
  have hfront := fun conflict => carryAll_append (hgrouping conflict) hsorting
  exact carryAll_append (carryAll_append (hfront _) (carryAll_distinction plan n))
    (carryAll_limiting plan _ 0)

end Stage

/-! ## Output -/

variable {σ : Type} [RecordSink σ] {n m : Nat} {sink : σ}

/-- The sink has been given only records with the given number of fields. -/
def Outlet.Delivers (sink : σ) (m : Nat) (outlet : Outlet σ) : Prop :=
  ∃ records, (∀ record ∈ records, record.length = m) ∧
    outlet.sink = RecordSink.writeAll sink records

namespace Outlet

variable {outlet : Outlet σ}

theorem Delivers.write (h : outlet.Delivers sink m) {row : OutputRow} (hrow : row.IsWide m) :
    (outlet.write row).2.Delivers sink m := by
  cases hfull : outlet.full with
  | true =>
    rw [write_of_full hfull]
    exact h
  | false =>
    obtain ⟨records, hrecords, hsink⟩ := h
    have hnext : ∀ record, row.record = .ok record →
        (RecordSink.write record outlet.sink).2 = RecordSink.writeAll sink (records ++ [record]) ∧
          ∀ other ∈ records ++ [record], other.length = m := by
      intro record hrecord
      refine ⟨by rw [hsink, RecordSink.writeAll_append_singleton], ?_⟩
      exact List.forall_mem_append.mpr
        ⟨hrecords, List.forall_mem_singleton.mpr (hrow.length_record hrecord)⟩
    obtain ⟨fault, -, heq⟩ | ⟨record, e, sink', hrecord, hwrite, heq⟩ |
        ⟨record, demand, sink', hrecord, hwrite, heq⟩ := write_cases hfull row
    · rw [heq]
      exact ⟨records, hrecords, hsink⟩
    all_goals
      obtain ⟨hafter, hlengths⟩ := hnext record hrecord
      rw [hwrite] at hafter
      rw [heq]
      exact ⟨records ++ [record], hlengths, hafter⟩

theorem Delivers.receive (h : outlet.Delivers sink m) {flow : Flow}
    (hflow : ∀ row ∈ flow.rows, row.IsWide m) : (outlet.receive flow).2.Delivers sink m := by
  cases flow with
  | forward row | last row => exact h.write (hflow row List.mem_cons_self)
  | kept | closed => exact h

end Outlet

namespace Output

variable [Hashing]

theorem delivers_pass {stages : List Stage} (hstages : Stage.CarryAll n m stages)
    {outlet : Outlet σ} (houtlet : outlet.Delivers sink m) {row : OutputRow}
    (hrow : row.IsWide n) :
    Stage.CarryAll n m (pass row stages outlet).2.1 ∧
      (pass row stages outlet).2.2.Delivers sink m := by
  obtain ⟨hstages', hflow⟩ := hstages.acceptAll hrow
  unfold pass
  split
  · next heq =>
    rw [heq] at hstages'
    exact ⟨hstages', houtlet⟩
  · next flow stages' heq =>
    rw [heq] at hstages' hflow
    exact ⟨hstages', houtlet.receive (hflow flow rfl)⟩

theorem delivers_passAll {stages : List Stage} (hstages : Stage.CarryAll n m stages)
    {outlet : Outlet σ} (houtlet : outlet.Delivers sink m) {rows : List OutputRow}
    (hrows : ∀ row ∈ rows, row.IsWide n) :
    Stage.CarryAll n m (passAll rows stages outlet).2.1 ∧
      (passAll rows stages outlet).2.2.Delivers sink m := by
  induction rows generalizing stages outlet with
  | nil => exact ⟨hstages, houtlet⟩
  | cons row rows ih =>
    obtain ⟨hrow, hothers⟩ := List.forall_mem_cons.mp hrows
    have hpass := delivers_pass hstages houtlet hrow
    unfold passAll
    split
    · next heq =>
      rw [heq] at hpass
      exact ih hpass.1 hpass.2 hothers
    · exact hpass

theorem delivers_drainAll {stages : List Stage} (hstages : Stage.CarryAll n m stages)
    {outlet : Outlet σ} (houtlet : outlet.Delivers sink m) :
    (drainAll stages outlet).2.2.Delivers sink m := by
  induction stages using Stage.chain_induction generalizing n outlet with
  | nil =>
    rw [drainAll]
    exact houtlet
  | cons stage stages ih =>
    obtain ⟨between, hstage, hstages⟩ := hstages
    rw [drainAll_cons]
    rcases hdrain : stage.drain with ⟨fault | records, stage'⟩
    · exact houtlet
    · have hrecords := hstage.drain (congrArg Prod.fst hdrain)
      have hrows : ∀ row ∈ records.map OutputRow.plain, row.IsWide between :=
        List.forall_mem_map.mpr hrecords
      -- What a stage has held back goes through the stages behind it, which are drained next.
      have hpassed := delivers_passAll hstages houtlet hrows
      have hlength := length_passAll (records.map OutputRow.plain) stages outlet
      rcases hresult : passAll (records.map OutputRow.plain) stages outlet with
        ⟨e | demand, stages', outlet'⟩
      all_goals
        rw [hresult] at hpassed hlength
        simp only [hresult]
      · exact hpassed.2
      · exact ih stages' hlength hpassed.1 hpassed.2

/-- An output that takes rows with `n` fields, and writes records with `m` fields. -/
structure Carries (sink : σ) (n m : Nat) (output : Output σ) : Prop where
  stages : Stage.CarryAll n m output.stages
  outlet : output.outlet.Delivers sink m
  unfinished : output.finished = false

variable {output : Output σ}

theorem Carries.writeAll (h : output.Carries sink n m) {rows : List OutputRow}
    (hrows : ∀ row ∈ rows, row.IsWide n) : (output.writeAll rows).2.Carries sink n m := by
  obtain ⟨hstages, houtlet⟩ := delivers_passAll h.stages h.outlet hrows
  exact ⟨hstages, houtlet, h.unfinished⟩

/-- The sink of an output that has been ended has been given its records and has then been
ended. -/
theorem Carries.finish (h : output.Carries sink n m) :
    ∃ records, (∀ record ∈ records, record.length = m) ∧
      output.finish.2.outlet.sink =
        (RecordSink.finish (RecordSink.writeAll sink records)).2 := by
  obtain ⟨records, hrecords, hsink⟩ := delivers_drainAll h.stages h.outlet
  refine ⟨records, hrecords, ?_⟩
  rw [outlet_finish h.unfinished, Outlet.ended, hsink]

omit [Hashing] in
theorem Carries.abandon (h : output.Carries sink n m) :
    ∃ records, (∀ record ∈ records, record.length = m) ∧
      output.abandon.2.outlet.sink =
        (RecordSink.finish (RecordSink.writeAll sink records)).2 := by
  obtain ⟨records, hrecords, hsink⟩ := h.outlet
  refine ⟨records, hrecords, ?_⟩
  rw [Output.abandon, h.unfinished, if_neg Bool.false_ne_true, finishSink, ← hsink]

end Output

end TableQuery
