import Mathlib.Data.List.Induction
import TableQuery.Proofs.Run.Rows

/-!
# Assignments

Assignments change one record step by step, but every value is computed from the record as
it was read.  What they come to can therefore be said of each field on its own: a field to
which nothing is assigned stays, and any other holds the value of the last assignment to
it.  Assignments to different fields may be carried out in any order.
-/

namespace TableQuery

variable {row : Row} {assignments : List Assignment}

/-- A field stores a value that is assigned to it, or the empty text in place of an absent
one. -/
def Stores (field : Option Value) (v : Value) : Prop :=
  (v ≠ .null → field = some v) ∧ (v = .null → field = some (.text ""))

theorem stores_storedValue (v : Value) : Stores (some (storedValue v)) v := by
  unfold Stores storedValue
  cases v <;> simp [Value.isNull]

/-- What assignments make of the fields of a row. -/
structure Assigned (row : Row) (assignments : List Assignment) (fields : Record) : Prop where
  /-- No field is added or lost. -/
  length_eq : fields.length = row.fields.length
  /-- A field to which nothing is assigned stays as it is. -/
  kept : ∀ i, (∀ assignment ∈ assignments, assignment.index ≠ i) → fields[i]? = row.fields[i]?
  /-- The last assignment to a field gives it the value of its expression for the row. -/
  last : ∀ before assignment after, assignments = before ++ assignment :: after →
    (∀ later ∈ after, later.index ≠ assignment.index) →
      ∃ v, assignment.value.eval row [] = .ok v ∧ Stores fields[assignment.index]? v

/-- An assignment that is carried out changes one field. -/
theorem assign_eq_ok_iff {updated updated' : Updated} {assignment : Assignment} :
    assign row updated assignment = .ok updated' ↔
      assignment.index < updated.fields.length ∧ ∃ v, assignment.value.eval row [] = .ok v ∧
        updated' = ⟨updated.fields.set assignment.index (storedValue v),
          updated.nullReplaced || v.isNull⟩ := by
  unfold assign
  by_cases hindex : assignment.index < updated.fields.length
  · simp only [if_pos hindex, bind_eq_ok_iff, Row.eval_eq_ok_iff]
    constructor
    · rintro ⟨v, hv, heq⟩
      exact ⟨hindex, v, hv, (Except.ok.inj heq).symm⟩
    · rintro ⟨-, v, hv, rfl⟩
      exact ⟨v, hv, rfl⟩
  · rw [if_neg hindex]
    constructor
    · intro h
      cases h
    · rintro ⟨hlt, -⟩
      exact absurd hlt hindex

/-- One more assignment changes its field only. -/
theorem Assigned.append {fields : Record} (h : Assigned row assignments fields)
    {assignment : Assignment} (hindex : assignment.index < fields.length) {v : Value}
    (hv : assignment.value.eval row [] = .ok v) :
    Assigned row (assignments ++ [assignment])
      (fields.set assignment.index (storedValue v)) where
  length_eq := by rw [List.length_set, h.length_eq]
  kept i hi := by
    have hne : assignment.index ≠ i := hi assignment (by simp)
    rw [List.getElem?_set_ne hne]
    exact h.kept i fun other hother => hi other (List.mem_append_left _ hother)
  last before other after heq hafter := by
    rcases List.eq_nil_or_concat after with rfl | ⟨init, newest, rfl⟩
    · obtain ⟨-, hother⟩ := List.append_inj' heq rfl
      obtain rfl : assignment = other := by simpa using hother
      refine ⟨v, hv, ?_⟩
      rw [List.getElem?_set_self hindex]
      exact stores_storedValue v
    · rw [List.concat_eq_append, ← List.cons_append, ← List.append_assoc] at heq
      obtain ⟨hassignments, hnewest⟩ := List.append_inj' heq rfl
      obtain rfl : assignment = newest := by simpa using hnewest
      have hne : assignment.index ≠ other.index := hafter assignment (by simp)
      obtain ⟨w, hw, hfield⟩ := h.last before other init hassignments fun later hlater =>
        hafter later (by simp [hlater])
      exact ⟨w, hw, by rwa [List.getElem?_set_ne hne]⟩

/-- Assignments that are carried out one after the other are assigned at once. -/
theorem assigned_of_assignAll {updated : Updated}
    (h : assignAll row assignments = .ok updated) : Assigned row assignments updated.fields := by
  unfold assignAll at h
  induction assignments using List.reverseRecOn generalizing updated with
  | nil =>
    cases h
    exact ⟨rfl, fun _ _ => rfl, by simp⟩
  | append_singleton assignments assignment ih =>
    rw [List.foldlM_append, bind_eq_ok_iff] at h
    obtain ⟨earlier, hearlier, h⟩ := h
    rw [List.foldlM_cons, bind_eq_ok_iff] at h
    obtain ⟨updated', hassign, heq⟩ := h
    obtain ⟨hindex, v, hv, rfl⟩ := assign_eq_ok_iff.mp hassign
    cases heq
    exact (ih hearlier).append hindex hv

/-- Assignments to different fields commute. -/
theorem assign_comm {updated middle updated' : Updated} {first second : Assignment}
    (hne : first.index ≠ second.index) (hfirst : assign row updated first = .ok middle)
    (hsecond : assign row middle second = .ok updated') :
    ∃ middle', assign row updated second = .ok middle' ∧
      assign row middle' first = .ok updated' := by
  obtain ⟨hfirstIndex, v, hv, rfl⟩ := assign_eq_ok_iff.mp hfirst
  obtain ⟨hsecondIndex, w, hw, rfl⟩ := assign_eq_ok_iff.mp hsecond
  simp only [List.length_set] at hsecondIndex
  refine ⟨⟨updated.fields.set second.index (storedValue w), updated.nullReplaced || w.isNull⟩,
    assign_eq_ok_iff.mpr ⟨hsecondIndex, w, hw, rfl⟩,
    assign_eq_ok_iff.mpr ⟨by simpa using hfirstIndex, v, hv, ?_⟩⟩
  rw [List.set_comm _ _ hne, Bool.or_right_comm]

/-- Assignments to pairwise different fields come to the same in any order. -/
theorem foldlM_assign_perm {assignments' : List Assignment}
    (hperm : assignments.Perm assignments')
    (hnodup : (assignments.map Assignment.index).Nodup) {updated updated' : Updated}
    (h : assignments.foldlM (assign row) updated = .ok updated') :
    assignments'.foldlM (assign row) updated = .ok updated' := by
  induction hperm generalizing updated with
  | nil => exact h
  | cons assignment _ ih =>
    rw [List.foldlM_cons, bind_eq_ok_iff] at h ⊢
    obtain ⟨middle, hassign, h⟩ := h
    exact ⟨middle, hassign, ih (List.nodup_cons.mp hnodup).2 h⟩
  | swap first second rest =>
    rw [List.foldlM_cons, bind_eq_ok_iff] at h
    obtain ⟨middle, hsecond, h⟩ := h
    rw [List.foldlM_cons, bind_eq_ok_iff] at h
    obtain ⟨both, hfirst, h⟩ := h
    have hne : second.index ≠ first.index := by
      intro heq
      simp [heq] at hnodup
    obtain ⟨middle', hfirst', hsecond'⟩ := assign_comm hne hsecond hfirst
    rw [List.foldlM_cons, hfirst']
    show (second :: rest).foldlM (assign row) middle' = _
    rw [List.foldlM_cons, hsecond']
    exact h
  | trans hperm _ ih ih' =>
    exact ih' ((hperm.map Assignment.index).nodup_iff.mp hnodup) (ih hnodup h)

end TableQuery
