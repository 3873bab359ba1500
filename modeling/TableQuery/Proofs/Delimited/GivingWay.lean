import TableQuery.Delimited.Joiner

/-!
# Output of one field a line over many records

Whether output of one field a line gives way to commas as a whole is decided by the first
record.  Before it the joiner is undecided; after it, the joiner has either switched to commas
for good, or it keeps its dialect and only writes single records with commas.  Either of these
two is kept by every further record.  Where giving way is not allowed, a record that cannot be
joined leaves the joiner as it was.
-/

namespace TableQuery
namespace Delimited
namespace Joiner

/-- Joins records one after the other.  A record that cannot be joined does not end the run. -/
def run (joiner : Joiner) :
    List (List (List Char)) → List (Except TableError (List Char)) × Joiner
  | [] => ([], joiner)
  | fields :: records =>
    let step := joiner.step fields
    let rest := step.2.run records
    (step.1 :: rest.1, rest.2)

/-- One field a line. -/
def oneField (delimiter : List Char) : Dialect :=
  ⟨delimiter, .monocolumn⟩

/-- The line of a record with commas. -/
def commaLine (fields : List (List Char)) : List Char :=
  Text.joinWith [','] (fields.map (quoteField [',']))

/-- The line of a record where only those without exactly one field are written with commas. -/
def soleLine : List (List Char) → Except TableError (List Char)
  | [field] => .ok field
  | fields => (join Dialect.comma fields).map Joined.line

/-- The line of a record where those without exactly one field are refused. -/
def strictLine : List (List Char) → Except TableError (List Char)
  | [field] => .ok field
  | fields => .error (.monocolumnOverflow fields.length)

/-- Whether a record does not have exactly one field. -/
def overflows (fields : List (List Char)) : Bool :=
  fields.length != 1

theorem run_append (joiner : Joiner) (before after : List (List (List Char))) :
    joiner.run (before ++ after) =
      ((joiner.run before).1 ++ ((joiner.run before).2.run after).1,
        ((joiner.run before).2.run after).2) := by
  induction before generalizing joiner with
  | nil => rfl
  | cons fields before ih => simp [run, ih]

theorem length_run_fst (joiner : Joiner) (records : List (List (List Char))) :
    (joiner.run records).1.length = records.length := by
  induction records generalizing joiner with
  | nil => rfl
  | cons fields records ih => simp [run, ih]

theorem join_comma (fields : List (List Char)) :
    join Dialect.comma fields = .ok ⟨commaLine fields, false⟩ :=
  rfl

theorem overflows_iff {fields : List (List Char)} :
    overflows fields = true ↔ fields.length ≠ 1 := by
  simp [overflows]

theorem soleLine_of_overflows {fields : List (List Char)} (h : overflows fields = true) :
    soleLine fields = .ok (commaLine fields) := by
  rw [overflows_iff] at h
  unfold soleLine
  split
  · exact absurd rfl h
  · rfl

theorem strictLine_of_overflows {fields : List (List Char)} (h : overflows fields = true) :
    strictLine fields = .error (.monocolumnOverflow fields.length) := by
  rw [overflows_iff] at h
  unfold strictLine
  split
  · exact absurd rfl h
  · rfl

theorem exists_soleLine (fields : List (List Char)) : ∃ line, soleLine fields = .ok line := by
  unfold soleLine
  split
  · exact ⟨_, rfl⟩
  · exact ⟨_, rfl⟩

theorem exists_of_not_overflows {fields : List (List Char)} (h : overflows fields = false) :
    ∃ field, fields = [field] := by
  have hlength : fields.length = 1 := by simpa [overflows] using h
  exact List.length_eq_one_iff.mp hlength

/-! ## One record -/

theorem joinPlain_of_join {joiner : Joiner} {fields : List (List Char)} {line : List Char}
    (h : join joiner.dialect fields = .ok ⟨line, false⟩) :
    joiner.joinPlain fields = (.ok line, { joiner with decided := true }) := by
  simp [joinPlain, h]

/-- A record that cannot be joined changes nothing, whatever the dialect. -/
theorem step_snd_of_error {joiner : Joiner} {fields : List (List Char)} {e : TableError}
    (h : (joiner.step fields).1 = .error e) : (joiner.step fields).2 = joiner := by
  unfold step at h ⊢
  split
  · next hoverflow =>
    rw [if_pos hoverflow] at h
    split
    · rfl
    · next hdynamic =>
      rw [if_neg hdynamic] at h
      split
      · next hdecided =>
        rw [if_pos hdecided, joinPlain_of_join (join_comma fields)] at h
        cases h
      · next hdecided =>
        rw [if_neg hdecided] at h
        cases h
  · next hoverflow =>
    -- Of the dialects only that of one field a line refuses records, and only such ones.
    rw [if_neg hoverflow] at h
    unfold joinPlain at h
    dsimp only at h
    split at h
    · next heq =>
      unfold join at heq
      dsimp only at heq
      split at heq
      · next hpolicy =>
        split at heq
        · cases heq
        · next hsingle =>
          refine absurd ⟨hpolicy, fun hlength => ?_⟩ hoverflow
          obtain ⟨field, rfl⟩ := List.length_eq_one_iff.mp hlength
          exact hsingle field rfl
      · cases heq
      · cases heq
      · cases heq
      · cases heq
    · split at h <;> cases h

/-! ## Giving way as a whole -/

/-- The state after the output has given way to commas. -/
structure Switched (joiner : Joiner) : Prop where
  dialect : joiner.dialect = Dialect.comma
  warnings : joiner.warnings.length = 1

theorem switched_of_first (delimiter : List Char) {fields : List (List Char)}
    (h : overflows fields = true) :
    ((start (oneField delimiter) true).step fields).1 = .ok (commaLine fields) ∧
      Switched ((start (oneField delimiter) true).step fields).2 := by
  have hlength := overflows_iff.mp h
  have hswitched : join ((start (oneField delimiter) true).switchToComma fields.length).dialect
      fields = .ok ⟨commaLine fields, false⟩ := join_comma fields
  have hstep : (start (oneField delimiter) true).step fields =
      ((start (oneField delimiter) true).switchToComma fields.length).joinPlain fields := by
    simp [step, start, oneField, hlength]
  rw [hstep, joinPlain_of_join hswitched]
  exact ⟨rfl, rfl, rfl⟩

theorem Switched.step {joiner : Joiner} (h : Switched joiner) (fields : List (List Char)) :
    (joiner.step fields).1 = .ok (commaLine fields) ∧ Switched (joiner.step fields).2 := by
  have hjoin : join joiner.dialect fields = .ok ⟨commaLine fields, false⟩ := by
    rw [h.dialect, join_comma]
  have hstep : joiner.step fields = joiner.joinPlain fields := by
    rw [Joiner.step, if_neg]
    rw [h.dialect]
    exact fun hmono => absurd hmono.1 (by decide)
  rw [hstep, joinPlain_of_join hjoin]
  exact ⟨rfl, h.dialect, h.warnings⟩

theorem Switched.run {joiner : Joiner} (h : Switched joiner)
    (records : List (List (List Char))) :
    (joiner.run records).1 = records.map (fun fields => .ok (commaLine fields)) ∧
      Switched (joiner.run records).2 := by
  induction records generalizing joiner with
  | nil => exact ⟨rfl, h⟩
  | cons fields records ih =>
    obtain ⟨hline, hnext⟩ := h.step fields
    obtain ⟨hlines, hlast⟩ := ih hnext
    refine ⟨?_, hlast⟩
    rw [Joiner.run, List.map_cons, hline, hlines]

/-! ## Giving way record by record -/

/-- The state after the first record has kept the dialect.  It tells whether a record without
exactly one field has come since, and has one warning if so. -/
structure Kept (delimiter : List Char) (overflowed : Bool) (joiner : Joiner) : Prop where
  dialect : joiner.dialect = oneField delimiter
  dynamic : joiner.dynamic = true
  decided : joiner.decided = true
  overflowSeen : joiner.overflowSeen = overflowed
  warnings : joiner.warnings.length = overflowed.toNat

theorem step_single {joiner : Joiner} {delimiter : List Char}
    (h : joiner.dialect = oneField delimiter) (field : List Char) :
    joiner.step [field] = (.ok field, { joiner with decided := true }) := by
  have hjoin : join joiner.dialect [field] = .ok ⟨field, false⟩ := by
    rw [h]
    rfl
  rw [step, if_neg (fun hoverflow => hoverflow.2 rfl), joinPlain_of_join hjoin]

theorem kept_of_first (delimiter : List Char) {fields : List (List Char)}
    (h : overflows fields = false) :
    ((start (oneField delimiter) true).step fields).1 = soleLine fields ∧
      Kept delimiter false ((start (oneField delimiter) true).step fields).2 := by
  obtain ⟨field, rfl⟩ := exists_of_not_overflows h
  rw [step_single rfl]
  exact ⟨rfl, rfl, rfl, rfl, rfl, rfl⟩

theorem Kept.step {delimiter : List Char} {overflowed : Bool} {joiner : Joiner}
    (h : Kept delimiter overflowed joiner) (fields : List (List Char)) :
    (joiner.step fields).1 = soleLine fields ∧
      Kept delimiter (overflowed || overflows fields) (joiner.step fields).2 := by
  cases hoverflow : overflows fields with
  | false =>
    obtain ⟨field, rfl⟩ := exists_of_not_overflows hoverflow
    rw [step_single h.dialect, Bool.or_false]
    exact ⟨rfl, h.dialect, h.dynamic, rfl, h.overflowSeen, h.warnings⟩
  | true =>
    have hstep : joiner.step fields =
        (.ok (commaLine fields), joiner.noteOverflow fields.length) := by
      simp [Joiner.step, h.dialect, oneField, overflows_iff.mp hoverflow, h.dynamic, h.decided,
        join_comma, Except.map]
    rw [hstep, soleLine_of_overflows hoverflow, Bool.or_true]
    refine ⟨rfl, ?_⟩
    unfold noteOverflow
    split
    · next hseen =>
      have hwarnings := h.warnings
      rw [← h.overflowSeen, hseen] at hwarnings
      exact ⟨h.dialect, h.dynamic, h.decided, hseen, hwarnings⟩
    · next hseen =>
      have hwarnings := h.warnings
      rw [← h.overflowSeen, Bool.eq_false_iff.mpr hseen] at hwarnings
      exact ⟨h.dialect, h.dynamic, h.decided, rfl, by simp [warn, hwarnings]⟩

theorem Kept.run {delimiter : List Char} {overflowed : Bool} {joiner : Joiner}
    (h : Kept delimiter overflowed joiner) (records : List (List (List Char))) :
    (joiner.run records).1 = records.map soleLine ∧
      Kept delimiter (overflowed || records.any overflows) (joiner.run records).2 := by
  induction records generalizing joiner overflowed with
  | nil =>
    rw [List.any_nil, Bool.or_false]
    exact ⟨rfl, h⟩
  | cons fields records ih =>
    obtain ⟨hline, hnext⟩ := h.step fields
    obtain ⟨hlines, hlast⟩ := ih hnext
    rw [List.any_cons, ← Bool.or_assoc]
    refine ⟨?_, hlast⟩
    rw [Joiner.run, List.map_cons, hline, hlines]

/-- What output that may give way to commas has become of its records: the lines, the dialect
that the first record decides, and the one warning. -/
theorem run_dynamic (delimiter : List Char) (first : List (List Char))
    (records : List (List (List Char))) :
    let run := (start (oneField delimiter) true).run (first :: records)
    run.2.warnings.length = ((first :: records).any overflows).toNat ∧
      if overflows first then
        run.1 = (first :: records).map (fun fields => .ok (commaLine fields)) ∧
          run.2.dialect = Dialect.comma
      else
        run.1 = (first :: records).map soleLine ∧ run.2.dialect = oneField delimiter := by
  dsimp only
  rw [run, List.any_cons]
  cases hoverflow : overflows first with
  | true =>
    obtain ⟨hline, hfirst⟩ := switched_of_first delimiter hoverflow
    obtain ⟨hlines, hlast⟩ := hfirst.run records
    refine ⟨hlast.warnings, ?_, hlast.dialect⟩
    rw [List.map_cons, hline, hlines]
  | false =>
    obtain ⟨hline, hfirst⟩ := kept_of_first delimiter hoverflow
    obtain ⟨hlines, hlast⟩ := hfirst.run records
    refine ⟨hlast.warnings, ?_, hlast.dialect⟩
    rw [List.map_cons, hline, hlines]

/-! ## Not giving way -/

/-- The state of output that keeps to one field a line. -/
structure Strict (delimiter : List Char) (joiner : Joiner) : Prop where
  dialect : joiner.dialect = oneField delimiter
  dynamic : joiner.dynamic = false
  warnings : joiner.warnings = []

theorem strict_start (delimiter : List Char) :
    Strict delimiter (start (oneField delimiter) false) :=
  ⟨rfl, rfl, rfl⟩

theorem Strict.step {delimiter : List Char} {joiner : Joiner} (h : Strict delimiter joiner)
    (fields : List (List Char)) :
    (joiner.step fields).1 = strictLine fields ∧ Strict delimiter (joiner.step fields).2 := by
  cases hoverflow : overflows fields with
  | false =>
    obtain ⟨field, rfl⟩ := exists_of_not_overflows hoverflow
    rw [step_single h.dialect]
    exact ⟨rfl, h.dialect, h.dynamic, h.warnings⟩
  | true =>
    have hstep : joiner.step fields =
        (.error (.monocolumnOverflow fields.length), joiner) := by
      simp [Joiner.step, h.dialect, oneField, overflows_iff.mp hoverflow, h.dynamic]
    rw [hstep, strictLine_of_overflows hoverflow]
    exact ⟨rfl, h⟩

theorem Strict.run {delimiter : List Char} {joiner : Joiner} (h : Strict delimiter joiner)
    (records : List (List (List Char))) :
    (joiner.run records).1 = records.map strictLine ∧ Strict delimiter (joiner.run records).2 := by
  induction records generalizing joiner with
  | nil => exact ⟨rfl, h⟩
  | cons fields records ih =>
    obtain ⟨hline, hnext⟩ := h.step fields
    obtain ⟨hlines, hlast⟩ := ih hnext
    refine ⟨?_, hlast⟩
    rw [Joiner.run, List.map_cons, hline, hlines]

/-- Without a record that could not be joined, the other lines and the state are the same. -/
theorem run_append_of_error {joiner : Joiner} {before : List (List (List Char))}
    {fields : List (List Char)} {e : TableError}
    (h : ((joiner.run before).2.step fields).1 = .error e) (after : List (List (List Char))) :
    joiner.run (before ++ after) =
      ((joiner.run (before ++ fields :: after)).1.eraseIdx before.length,
        (joiner.run (before ++ fields :: after)).2) := by
  have hlength := length_run_fst joiner before
  have hlines : ((joiner.run before).1 ++
        (.error e :: ((joiner.run before).2.run after).1)).eraseIdx before.length =
      (joiner.run before).1 ++ ((joiner.run before).2.run after).1 := by
    rw [← hlength, List.eraseIdx_append_of_length_le (Nat.le_refl _), Nat.sub_self]
    rfl
  rw [run_append, run_append, Joiner.run, step_snd_of_error h, h, hlines]

/-! ## All records -/

/-- Output of one field a line, over any records.  If it may give way to commas, no record is
refused; the first record decides for all whether every line is written with commas, or only
those of records without exactly one field; and one warning is there as soon as there has been
such a record.  If not, exactly these records are refused, and a refused record leaves no
trace. -/
theorem run_oneField (delimiter : List Char) (records : List (List (List Char))) :
    (let run := (start (oneField delimiter) true).run records
     run.2.warnings.length ≤ 1 ∧
        (run.2.warnings ≠ [] ↔ ∃ fields ∈ records, fields.length ≠ 1) ∧
        (∀ line ∈ run.1, ∃ text, line = .ok text) ∧
        ((∃ first ∈ records.head?, first.length ≠ 1) →
          run.1 = records.map (fun fields => (join Dialect.comma fields).map Joined.line) ∧
            run.2.dialect = Dialect.comma) ∧
        ((∀ first ∈ records.head?, first.length = 1) →
          run.1 = records.map soleLine ∧ run.2.dialect = oneField delimiter)) ∧
      let run := (start (oneField delimiter) false).run records
      run.1 = records.map strictLine ∧ run.2.dialect = oneField delimiter ∧
        run.2.warnings = [] ∧
        ∀ before fields after, records = before ++ fields :: after → fields.length ≠ 1 →
          (start (oneField delimiter) false).run (before ++ after) =
            (run.1.eraseIdx before.length, run.2) := by
  refine ⟨?_, ?_⟩
  · cases records with
    | nil => simp [run, start]
    | cons first records =>
      obtain ⟨hwarnings, hcase⟩ := run_dynamic delimiter first records
      dsimp only at hwarnings hcase ⊢
      have hreported : ((start (oneField delimiter) true).run (first :: records)).2.warnings ≠ [] ↔
          ∃ fields ∈ first :: records, fields.length ≠ 1 := by
        rw [← List.length_pos_iff, hwarnings, Nat.pos_iff_ne_zero, Ne, Bool.toNat_eq_zero,
          Bool.not_eq_false, List.any_eq_true]
        simp only [overflows_iff]
      refine ⟨hwarnings ▸ Bool.toNat_le _, hreported, ?_, ?_, ?_⟩
      · intro line hline
        split at hcase
        · rw [hcase.1] at hline
          obtain ⟨fields, -, rfl⟩ := List.mem_map.mp hline
          exact ⟨_, rfl⟩
        · rw [hcase.1] at hline
          obtain ⟨fields, -, rfl⟩ := List.mem_map.mp hline
          exact exists_soleLine fields
      · rintro ⟨_, ⟨⟩, hlength⟩
        rw [if_pos (overflows_iff.mpr hlength)] at hcase
        exact hcase
      · intro hsingle
        have hlength : ¬overflows first = true :=
          mt overflows_iff.mp (not_not_intro (hsingle first rfl))
        rw [if_neg hlength] at hcase
        exact hcase
  · obtain ⟨hlines, hlast⟩ := (strict_start delimiter).run records
    refine ⟨hlines, hlast.dialect, hlast.warnings, ?_⟩
    rintro before fields after rfl hlength
    have hbefore := (strict_start delimiter).run before
    refine run_append_of_error (e := .monocolumnOverflow fields.length) ?_ after
    rw [(hbefore.2.step fields).1, strictLine_of_overflows (overflows_iff.mpr hlength)]

/-- A record with two fields behind one with one field is written with commas, or refused. -/
theorem run_oneField_late :
    let records := [["a,b".toList], ["c".toList, "d".toList], ["e".toList]]
    records.head? = some ["a,b".toList] ∧
      ((start (oneField []) true).run records).1 =
        [.ok "a,b".toList, .ok "c,d".toList, .ok "e".toList] ∧
      ((start (oneField []) true).run records).2.warnings ≠ [] ∧
      ((start (oneField []) false).run records).1 =
        [.ok "a,b".toList, .error (.monocolumnOverflow 2), .ok "e".toList] := by
  intro records
  obtain ⟨⟨-, hreported, -, -, hkept⟩, hstrict, -⟩ := run_oneField [] records
  have hfirst : ∀ first ∈ records.head?, first.length = 1 := by simp [records]
  refine ⟨rfl, (hkept hfirst).1, hreported.mpr ?_, hstrict⟩
  exact ⟨["c".toList, "d".toList], by simp [records], by decide⟩

end Joiner
end Delimited
end TableQuery
