import TableQuery.Text.Integer

/-!
# Integers of sixty-four bits

An integer is in range exactly if it is the value of a sixty-four-bit integer.
-/

namespace TableQuery

variable {n : Int} {m : Int64}

theorem int64?_eq_some_iff : int64? n = some m ↔ m.toInt = n := by
  have hlow := m.minValue_le_toInt
  have hhigh := m.toInt_le
  unfold int64?
  split
  · next hrange =>
    rw [Option.some_inj]
    constructor
    · rintro rfl
      exact Int64.toInt_ofInt_of_le hrange.1 (Int.lt_of_le_sub_one hrange.2)
    · rintro rfl
      exact Int64.ofInt_toInt m
  · next hrange =>
    refine ⟨nofun, ?_⟩
    rintro rfl
    exact absurd ⟨hlow, hhigh⟩ hrange

@[simp] theorem int64?_toInt (m : Int64) : int64? m.toInt = some m :=
  int64?_eq_some_iff.mpr rfl

theorem int64?_eq_none_iff : int64? n = none ↔ ∀ m : Int64, m.toInt ≠ n := by
  rw [Option.eq_none_iff_forall_ne_some]
  exact forall_congr' fun m => not_congr int64?_eq_some_iff

theorem int64?_eq_none_iff_range :
    int64? n = none ↔ ¬(Int64.minValue.toInt ≤ n ∧ n ≤ Int64.maxValue.toInt) := by
  simp [int64?]

end TableQuery
