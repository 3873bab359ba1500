import TableQuery.Proofs.Run.Stopping

/-!
# Sinks that refuse records

A sink in memory refuses records from its capacity on.  What it holds in the end is the
first part of what a sink without a capacity would hold.  The stages before the two sinks
take the same rows until the first sink refuses one; from then on they may differ, since
stages are emptied only until no more rows are wanted, but that sink is left alone.
-/

namespace TableQuery

/-! ## Sinks that are watched -/

/-- A sink with what it has said to the records that were written to it, latest first, and
the number of times that its output has been ended. -/
structure Watched (σ : Type) where
  sink : σ
  answers : List (Except TableError Demand)
  endings : Nat

namespace Watched

variable {σ : Type} [RecordSink σ]

/-- A sink to which nothing has been written. -/
def ofSink (sink : σ) : Watched σ :=
  ⟨sink, [], 0⟩

instance : RecordSink (Watched σ) where
  announce names watched := { watched with sink := RecordSink.announce names watched.sink }
  write record watched :=
    let (answer, sink) := RecordSink.write record watched.sink
    (answer, { watched with sink, answers := answer :: watched.answers })
  finish watched :=
    let (outcome, sink) := RecordSink.finish watched.sink
    (outcome, { watched with sink, endings := watched.endings + 1 })
  warnings watched := RecordSink.warnings watched.sink

theorem answers_of_write {watched watched' : Watched σ} {record : Record}
    {answer : Except TableError Demand}
    (h : RecordSink.write record watched = (answer, watched')) :
    watched'.answers = answer :: watched.answers ∧ watched'.endings = watched.endings := by
  cases h
  exact ⟨rfl, rfl⟩

end Watched

namespace Outlet

variable {σ : Type} [RecordSink σ]

/-- Nothing has been written to the sink behind its first refusal, nor has its output been
ended. -/
structure IsHeedful (outlet : Outlet (Watched σ)) : Prop where
  /-- No answer but the latest is a refusal. -/
  earlier : .ok .stop ∉ outlet.sink.answers.tail
  /-- The latest one is no refusal as long as the outlet is open. -/
  latest : outlet.full = false → .ok .stop ∉ outlet.sink.answers
  /-- The output of the sink goes on. -/
  endings : outlet.sink.endings = 0

omit [RecordSink σ] in
theorem isHeedful_start (sink : σ) : IsHeedful ⟨Watched.ofSink sink, false, 0⟩ :=
  ⟨List.not_mem_nil, fun _ => List.not_mem_nil, rfl⟩

theorem IsHeedful.write {outlet : Outlet (Watched σ)} (row : OutputRow)
    (h : outlet.IsHeedful) : (outlet.write row).2.IsHeedful := by
  cases hfull : outlet.full with
  | true =>
    rw [write_of_full hfull]
    exact h
  | false =>
    have hopen := h.latest hfull
    obtain ⟨fault, -, heq⟩ | ⟨record, e, sink, -, hsink, heq⟩ |
      ⟨record, demand, sink, -, hsink, heq⟩ := write_cases hfull row
    · rw [heq]
      exact h
    · obtain ⟨hanswers, hendings⟩ := Watched.answers_of_write hsink
      rw [heq]
      exact ⟨by simpa [hanswers] using hopen, fun _ => by simpa [hanswers] using hopen,
        hendings.trans h.endings⟩
    · obtain ⟨hanswers, hendings⟩ := Watched.answers_of_write hsink
      rw [heq]
      refine ⟨by simpa [hanswers] using hopen, fun hdemand => ?_, hendings.trans h.endings⟩
      have hmore : .ok .stop ≠ (.ok demand : Except TableError Demand) := by
        rintro ⟨⟩
        exact absurd hdemand (by simp)
      simpa [hanswers, hmore] using hopen

end Outlet

/-! ## Sinks with a capacity -/

namespace Watched

/-- Watched output in memory after one more record. -/
def push (watched : Watched MemorySink) (record : Record) (answer : Demand) :
    Watched MemorySink :=
  ⟨{ watched.sink with latest := record :: watched.sink.latest }, .ok answer :: watched.answers,
    watched.endings⟩

@[simp] theorem records_push (watched : Watched MemorySink) (record : Record)
    (answer : Demand) :
    (watched.push record answer).sink.records = watched.sink.records ++ [record] := by
  simp [push, MemorySink.records]

theorem write_of_uncapped {watched : Watched MemorySink} (h : watched.sink.capacity = none)
    (record : Record) :
    RecordSink.write record watched = (.ok .more, watched.push record .more) := by
  simp [RecordSink.write, MemorySink.write, push, h]

/-- A record is refused only after it has been taken. -/
theorem write_of_capped {watched : Watched MemorySink} {capacity : Nat}
    (h : watched.sink.capacity = some capacity) (record : Record) :
    RecordSink.write record watched =
      if capacity ≤ watched.sink.records.length + 1 then (.ok .stop, watched.push record .stop)
      else (.ok .more, watched.push record .more) := by
  by_cases hcapacity : capacity ≤ watched.sink.latest.length + 1 <;>
    simp [RecordSink.write, MemorySink.write, push, h, MemorySink.records, hcapacity]

end Watched

namespace Outlet

/-- Two outlets to memory, the first of which is refused records from a capacity on: it
has got the first part of what the second one has got, at least one record. -/
structure IsPart (capacity : Nat) (limited unlimited : Outlet (Watched MemorySink)) : Prop where
  capped : limited.sink.sink.capacity = some capacity
  uncapped : unlimited.sink.sink.capacity = none
  records_eq :
    limited.sink.sink.records = unlimited.sink.sink.records.take (max capacity 1)
  full_iff : limited.full ↔ max capacity 1 ≤ unlimited.sink.sink.records.length
  never_full : unlimited.full = false
  written_eq : limited.written = limited.sink.sink.records.length

variable {capacity : Nat} {limited unlimited : Outlet (Watched MemorySink)}

theorem isPart_start (header : Option (List String)) (capacity : Nat) :
    IsPart capacity ⟨Watched.ofSink ⟨header, [], some capacity, false⟩, false, 0⟩
      ⟨Watched.ofSink ⟨header, [], none, false⟩, false, 0⟩ where
  capped := rfl
  uncapped := rfl
  records_eq := List.take_nil.symm
  full_iff := iff_of_false Bool.false_ne_true (Nat.not_le.mpr (Nat.le_max_right capacity 1))
  never_full := rfl
  written_eq := rfl

theorem write_of_uncapped (hopen : unlimited.full = false)
    (huncapped : unlimited.sink.sink.capacity = none) {row : OutputRow} {record : Record}
    (hrecord : row.record = .ok record) :
    unlimited.write row =
      (.ok .more, ⟨unlimited.sink.push record .more, false, unlimited.written + 1⟩) := by
  simp [write, hopen, hrecord, Watched.write_of_uncapped huncapped]

theorem write_of_capped (hopen : limited.full = false)
    (hcapped : limited.sink.sink.capacity = some capacity) {row : OutputRow} {record : Record}
    (hrecord : row.record = .ok record) :
    limited.write row =
      if capacity ≤ limited.sink.sink.records.length + 1 then
        (.ok .stop, ⟨limited.sink.push record .stop, true, limited.written + 1⟩)
      else (.ok .more, ⟨limited.sink.push record .more, false, limited.written + 1⟩) := by
  by_cases hcapacity : capacity ≤ limited.sink.sink.records.length + 1 <;>
    simp [write, hopen, hrecord, Watched.write_of_capped hcapped, hcapacity]

/-- When the first sink is full the second one goes on alone. -/
theorem IsPart.write_unlimited (hfull : limited.full) (unlimited : Outlet (Watched MemorySink))
    (row : OutputRow) (h : IsPart capacity limited unlimited) :
    IsPart capacity limited (unlimited.write row).2 := by
  cases hrecord : row.record with
  | error fault =>
    have hwrite : unlimited.write row = (.error (.data fault), unlimited) := by
      simp [write, h.never_full, hrecord]
    rw [hwrite]
    exact h
  | ok record =>
    have hlength := h.full_iff.mp hfull
    rw [write_of_uncapped h.never_full h.uncapped hrecord]
    refine ⟨h.capped, h.uncapped, ?_, ?_, rfl, h.written_eq⟩
    · rw [Watched.records_push, List.take_append_of_le_length hlength, h.records_eq]
    · rw [Watched.records_push, List.length_append]
      exact ⟨fun _ => Nat.le_succ_of_le hlength, fun _ => hfull⟩

/-- An open sink has got less than its capacity, which is all that there is. -/
theorem IsPart.of_open (hopen : limited.full = false) (h : IsPart capacity limited unlimited) :
    unlimited.sink.sink.records.length < max capacity 1 ∧
      limited.sink.sink.records = unlimited.sink.sink.records := by
  have hlength : unlimited.sink.sink.records.length < max capacity 1 := by
    rw [← Nat.not_le, ← h.full_iff, hopen]
    exact Bool.false_ne_true
  exact ⟨hlength, by rw [h.records_eq, List.take_of_length_le (Nat.le_of_lt hlength)]⟩

/-- An open sink takes one more record, and is full if the capacity is reached by it. -/
theorem IsPart.push (hopen : limited.full = false) (h : IsPart capacity limited unlimited)
    (record : Record) (answer : Demand) {full : Bool}
    (hfull : full ↔ capacity ≤ unlimited.sink.sink.records.length + 1) :
    IsPart capacity ⟨limited.sink.push record answer, full, limited.written + 1⟩
      ⟨unlimited.sink.push record .more, false, unlimited.written + 1⟩ := by
  obtain ⟨hlength, hrecords⟩ := h.of_open hopen
  refine ⟨h.capped, h.uncapped, ?_, ?_, rfl, ?_⟩
  · rw [Watched.records_push, Watched.records_push, hrecords, List.take_of_length_le]
    rw [List.length_append]
    exact hlength
  · rw [Watched.records_push, List.length_append, List.length_singleton, hfull]
    omega
  · simp [h.written_eq]

/-- As long as the first sink is open a row is written to both of them alike. -/
theorem IsPart.write_open (hopen : limited.full = false) (row : OutputRow)
    (h : IsPart capacity limited unlimited) :
    IsPart capacity (limited.write row).2 (unlimited.write row).2 ∧
      ((limited.write row).2.full = false → (unlimited.write row).1 = (limited.write row).1) := by
  obtain ⟨-, hrecords⟩ := h.of_open hopen
  cases hrecord : row.record with
  | error fault =>
    have hlimited : limited.write row = (.error (.data fault), limited) := by
      simp [write, hopen, hrecord]
    have hunlimited : unlimited.write row = (.error (.data fault), unlimited) := by
      simp [write, h.never_full, hrecord]
    rw [hlimited, hunlimited]
    exact ⟨h, fun _ => rfl⟩
  | ok record =>
    rw [write_of_uncapped h.never_full h.uncapped hrecord,
      write_of_capped hopen h.capped hrecord, hrecords]
    split
    · next hcapacity =>
      exact ⟨h.push hopen record .stop (iff_of_true rfl hcapacity),
        fun hopen => absurd hopen.symm Bool.false_ne_true⟩
    · next hcapacity =>
      exact ⟨h.push hopen record .more (iff_of_false Bool.false_ne_true hcapacity),
        fun _ => rfl⟩

/-- A row is written to both sinks, or to the second one if the first one is full. -/
theorem IsPart.write (row : OutputRow) (h : IsPart capacity limited unlimited) :
    IsPart capacity (limited.write row).2 (unlimited.write row).2 ∧
      ((limited.write row).2.full = false → (unlimited.write row).1 = (limited.write row).1) := by
  cases hfull : limited.full with
  | true =>
    rw [write_of_full hfull]
    exact ⟨h.write_unlimited hfull unlimited row,
      fun hopen => absurd (hopen.symm.trans hfull) Bool.false_ne_true⟩
  | false => exact h.write_open hfull row

theorem IsPart.receive (flow : Flow) (h : IsPart capacity limited unlimited) :
    IsPart capacity (limited.receive flow).2 (unlimited.receive flow).2 ∧
      ((limited.receive flow).2.full = false →
        (unlimited.receive flow).1 = (limited.receive flow).1) := by
  cases flow with
  | forward row => exact h.write row
  | last row =>
    obtain ⟨hpart, hsame⟩ := h.write row
    exact ⟨hpart, fun hopen => congrArg (Except.map fun _ => Demand.stop) (hsame hopen)⟩
  | kept => exact ⟨h, fun _ => rfl⟩
  | closed => exact ⟨h, fun _ => rfl⟩

end Outlet

namespace Output

variable {capacity : Nat} {limited unlimited : Outlet (Watched MemorySink)}

variable [Hashing]

theorem pass_part (h : Outlet.IsPart capacity limited unlimited) (row : OutputRow)
    (stages : List Stage) :
    (pass row stages unlimited).2.1 = (pass row stages limited).2.1 ∧
      Outlet.IsPart capacity (pass row stages limited).2.2 (pass row stages unlimited).2.2 ∧
      ((pass row stages limited).2.2.full = false →
        (pass row stages unlimited).1 = (pass row stages limited).1) := by
  unfold pass
  rcases Stage.acceptAll row stages with ⟨fault | flow, stages'⟩
  · exact ⟨rfl, h, fun _ => rfl⟩
  · exact ⟨rfl, h.receive flow⟩

/-- Rows pass alike on their way to both sinks until the first sink is full. -/
theorem passAll_part (h : Outlet.IsPart capacity limited unlimited) (rows : List OutputRow)
    (stages : List Stage) :
    Outlet.IsPart capacity (passAll rows stages limited).2.2 (passAll rows stages unlimited).2.2 ∧
      ((passAll rows stages limited).2.2.full = false →
        (passAll rows stages unlimited).1 = (passAll rows stages limited).1 ∧
        (passAll rows stages unlimited).2.1 = (passAll rows stages limited).2.1) := by
  induction rows generalizing stages limited unlimited with
  | nil => exact ⟨h, fun _ => ⟨rfl, rfl⟩⟩
  | cons row rows ih =>
    obtain ⟨hstages, hpart, hsame⟩ := pass_part h row stages
    cases hfull : (pass row stages limited).2.2.full with
    | true =>
      have hlimited : (passAll (row :: rows) stages limited).2.2 =
          (pass row stages limited).2.2 :=
        passAll_cons_keeps (Outlet.write_keeps_of_full hfull) rfl rows
      have hunlimited := passAll_cons_keeps
        (fun unlimited row => Outlet.IsPart.write_unlimited hfull unlimited row) hpart rows
      rw [hlimited]
      exact ⟨hunlimited, fun hopen => absurd (hopen.symm.trans hfull) Bool.false_ne_true⟩
    | false =>
      have houtcome := hsame hfull
      rcases hlimited : pass row stages limited with ⟨outcome, stages', limited'⟩
      rcases hunlimited : pass row stages unlimited with ⟨outcome', stages'', unlimited'⟩
      rw [hlimited, hunlimited] at houtcome hstages hpart
      obtain rfl : outcome' = outcome := houtcome
      obtain rfl : stages'' = stages' := hstages
      simp only [passAll, hlimited, hunlimited]
      rcases outcome' with e | _ | _
      · exact ⟨hpart, fun _ => ⟨rfl, rfl⟩⟩
      · exact ih hpart stages''
      · exact ⟨hpart, fun _ => ⟨rfl, rfl⟩⟩

/-- Emptying a chain writes the first part of what it writes without a capacity. -/
theorem drainAll_part (h : Outlet.IsPart capacity limited unlimited) (stages : List Stage) :
    Outlet.IsPart capacity (drainAll stages limited).2.2 (drainAll stages unlimited).2.2 := by
  induction stages using Stage.chain_induction generalizing limited unlimited with
  | nil =>
    rw [drainAll, drainAll]
    exact h
  | cons stage stages ih =>
    rcases hdrain : stage.drain with ⟨fault | records, stage'⟩
    · rw [drainAll_cons, drainAll_cons, hdrain]
      exact h
    · obtain ⟨hpart, hsame⟩ := passAll_part h (records.map OutputRow.plain) stages
      cases hfull : (passAll (records.map OutputRow.plain) stages limited).2.2.full with
      | true =>
        have hlimited : (drainAll (stage :: stages) limited).2.2 =
            (passAll (records.map OutputRow.plain) stages limited).2.2 :=
          drainAll_cons_keeps (Outlet.write_keeps_of_full hfull) hdrain rfl
        rw [hlimited]
        exact drainAll_cons_keeps
          (fun unlimited row => Outlet.IsPart.write_unlimited hfull unlimited row) hdrain hpart
      | false =>
        obtain ⟨houtcome, hstages⟩ := hsame hfull
        have hlength := length_passAll (records.map OutputRow.plain) stages limited
        rcases hlimited : passAll (records.map OutputRow.plain) stages limited with
          ⟨outcome, stages', limited'⟩
        rcases hunlimited : passAll (records.map OutputRow.plain) stages unlimited with
          ⟨outcome', stages'', unlimited'⟩
        rw [hlimited] at hlength
        rw [hlimited, hunlimited] at houtcome hstages hpart
        obtain rfl : outcome' = outcome := houtcome
        obtain rfl : stages'' = stages' := hstages
        simp only [drainAll_cons, hdrain, hlimited, hunlimited]
        rcases outcome' with e | _
        · exact hpart
        · exact ih stages'' hlength hpart

/-- Rows that are sent to both sinks find the same stages there. -/
theorem sendAll_part {limited unlimited : Output (Watched MemorySink)}
    (hstages : unlimited.stages = limited.stages)
    (h : Outlet.IsPart capacity limited.outlet unlimited.outlet) (rows : List OutputRow) :
    (unlimited.sendAll rows).stages = (limited.sendAll rows).stages ∧
      Outlet.IsPart capacity (limited.sendAll rows).outlet (unlimited.sendAll rows).outlet := by
  induction rows generalizing limited unlimited with
  | nil => exact ⟨hstages, h⟩
  | cons row rows ih =>
    obtain ⟨hstages', hpart, -⟩ := pass_part h row limited.stages
    have hsame : (unlimited.write row).2.stages = (limited.write row).2.stages := by
      simpa [write, hstages] using hstages'
    have hnext : Outlet.IsPart capacity (limited.write row).2.outlet
        (unlimited.write row).2.outlet := by
      simpa [write, hstages] using hpart
    exact ih hsame hnext

theorem finish_part {limited unlimited : Output (Watched MemorySink)}
    (hstages : unlimited.stages = limited.stages)
    (h : Outlet.IsPart capacity limited.outlet unlimited.outlet)
    (hlimited : limited.finished = false) (hunlimited : unlimited.finished = false) :
    Outlet.IsPart capacity limited.finish.2.outlet unlimited.finish.2.outlet := by
  have hdrained := drainAll_part h limited.stages
  rw [outlet_finish hlimited, outlet_finish hunlimited, hstages]
  exact ⟨hdrained.capped, hdrained.uncapped, hdrained.records_eq, hdrained.full_iff,
    hdrained.never_full, hdrained.written_eq⟩

end Output

namespace Plan

/-- An output to memory of a capacity, for any plan and any rows.  Once no more rows are
wanted, what is sent makes no difference to what is in the memory in the end.  Nothing is
written to the memory after it has refused a record.  In the end it holds the first part of
what it would hold without a capacity, and has been ended once. -/
theorem output_refusal [Hashing] (plan : Plan) (header : Option (List String)) (capacity : Nat) :
    let start := fun capacity => Output.start (Stage.ofPlan plan)
      (Watched.ofSink (⟨header, [], capacity, false⟩ : MemorySink))
    (∀ before row after stopped,
      ((start (some capacity)).sendAll before).write row = (.ok .stop, stopped) →
        (stopped.sendAll after).finish.2.outlet.sink.sink.records =
          stopped.finish.2.outlet.sink.sink.records) ∧
    ∀ rows,
      let sent := (start (some capacity)).sendAll rows
      .ok .stop ∉ sent.finish.2.outlet.sink.answers.tail ∧
      sent.finish.2.outlet.sink.sink.records =
        ((start none).sendAll rows).finish.2.outlet.sink.sink.records.take (max capacity 1) ∧
      sent.finish.2.written = sent.finish.2.outlet.sink.sink.records.length ∧
      ∀ n, (Nat.repeat (fun output => output.finish.2) (n + 1) sent).outlet.sink.endings = 1 := by
  intro start
  refine ⟨fun before row after stopped hwrite => ?_, fun rows => ?_⟩
  · have hlast : Stage.LimitsLast ((start (some capacity)).sendAll before).stages :=
      Output.limitsLast_sendAll (Stage.limitsLast_ofPlan plan) before
    have hsettled := Output.isSettled_of_write_eq_stop hlast hwrite
    have hfinished : stopped.finished = false := by
      have hsent := Output.finished_sendAll (start (some capacity)) (before ++ [row])
      rw [Output.sendAll_append, Output.sendAll, List.foldl_cons, hwrite] at hsent
      exact hsent
    rw [Output.finish_sendAll_of_isSettled hsettled hfinished]
  · intro sent
    have hfinished : sent.finished = false := Output.finished_sendAll _ rows
    have hstart : Outlet.IsPart capacity (start (some capacity)).outlet (start none).outlet :=
      Outlet.isPart_start header capacity
    have hsame : (start none).stages = (start (some capacity)).stages := rfl
    obtain ⟨hstages, hpart⟩ := Output.sendAll_part hsame hstart rows
    have hended := Output.finish_part hstages hpart hfinished (Output.finished_sendAll _ rows)
    have hheedful : sent.outlet.IsHeedful :=
      Output.sendAll_keeps (fun _ row => Outlet.IsHeedful.write row) (Outlet.isHeedful_start _) rows
    have hdrained : (Output.drainAll sent.stages sent.outlet).2.2.IsHeedful :=
      Output.drainAll_keeps (fun _ row => Outlet.IsHeedful.write row) hheedful sent.stages
    refine ⟨?_, hended.records_eq, hended.written_eq, fun n => ?_⟩
    · rw [Output.outlet_finish hfinished]
      exact hdrained.earlier
    · rw [Output.repeat_finish, Output.outlet_finish hfinished]
      exact congrArg (· + 1) hdrained.endings

/-- A memory for one record wants no other one, whether it is sent or not. -/
theorem output_refusal_second :
    let output := Output.start (Stage.ofPlan
      ⟨.select [], none, none, none, false, none, .yes, none, none, 0, none⟩)
      (Watched.ofSink (MemorySink.empty (some 1)))
    let stopped := (output.write (.plain [.int 7])).2
    (stopped.sendAll [.plain [.int 8]]).finish.2.outlet.sink.sink.records =
      stopped.finish.2.outlet.sink.sink.records :=
  (output_refusal ⟨.select [], none, none, none, false, none, .yes, none, none, 0, none⟩ none
    1).1 [] (.plain [.int 7]) [.plain [.int 8]] _ rfl

end Plan
end TableQuery
