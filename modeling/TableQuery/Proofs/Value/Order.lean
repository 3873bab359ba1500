import TableQuery.Value.Order

/-!
# The order of values without doubles

An integer is rounded to a double when it is compared with one, so the order of values is
a linear order only where no doubles occur.  There two values are equal in the order only
if they are the same value, and the same holds of lists of values, which are the keys of
groups, of joins and of sorted rows.
-/

namespace TableQuery
namespace Value

/-! ## Values without doubles -/

mutual

/-- Whether a value holds no double at any depth. -/
def isFloatFree : Value → Bool
  | float _ => false
  | list items => areFloatFree items
  | _ => true

/-- Whether none of some values holds a double at any depth. -/
def areFloatFree : List Value → Bool
  | [] => true
  | v :: vs => isFloatFree v && areFloatFree vs

end

/-- A list holds no double exactly if none of its items does. -/
theorem areFloatFree_iff {as : List Value} :
    areFloatFree as = true ↔ ∀ a ∈ as, a.isFloatFree = true := by
  induction as with
  | nil => exact ⟨fun _ => nofun, fun _ => rfl⟩
  | cons a as ih => rw [areFloatFree, Bool.and_eq_true, List.forall_mem_cons, ih]

/-! ## The laws of a linear order -/

theorem cmp_of_rank_ne {a b : Value} (h : a.rank ≠ b.rank) :
    a.cmp b = compare a.rank b.rank := by
  cases a <;> cases b <;> first | rfl | exact absurd rfl h

/-- A value of another kind comes before a value only if its kind does. -/
theorem rank_le_of_cmp_lt {a b : Value} (h : a.cmp b = .lt) : a.rank ≤ b.rank := by
  by_cases hrank : a.rank = b.rank
  · omega
  · rw [cmp_of_rank_ne hrank, Nat.compare_eq_lt] at h
    omega

mutual

/-- Values that are equal in the order are the same. -/
theorem eq_of_cmp_eq {a b : Value} (ha : a.isFloatFree) (hb : b.isFloatFree)
    (h : a.cmp b = .eq) : a = b := by
  cases a with
  | float x => simp [isFloatFree] at ha
  | list as =>
    cases b with
    | list bs => exact congrArg list (eq_of_cmpList_eq ha hb h)
    | _ => simp [cmp, rank] at h
  | bool a =>
    cases b with
    | bool b => cases a <;> cases b <;> first | rfl | exact absurd h (by decide)
    | _ => simp [cmp, rank] at h
  | int a =>
    cases b with
    | int b => simpa [cmp, Number.cmp, Int64.toInt_inj] using h
    | float x => simp [isFloatFree] at hb
    | _ => simp [cmp, rank] at h
  | _ => cases b <;> simp_all [cmp, rank]

theorem eq_of_cmpList_eq {as bs : List Value} (ha : areFloatFree as) (hb : areFloatFree bs)
    (h : cmpList as bs = .eq) : as = bs := by
  cases as with
  | nil => cases bs <;> simp_all [cmpList]
  | cons a as =>
    cases bs with
    | nil => simp [cmpList] at h
    | cons b bs =>
      simp only [areFloatFree, Bool.and_eq_true] at ha hb
      simp only [cmpList, Ordering.then_eq_eq] at h
      rw [eq_of_cmp_eq ha.1 hb.1 h.1, eq_of_cmpList_eq ha.2 hb.2 h.2]

end

mutual

/-- The order seen from the other side. -/
theorem swap_cmp {a b : Value} (ha : a.isFloatFree) (hb : b.isFloatFree) :
    (a.cmp b).swap = b.cmp a := by
  by_cases hrank : a.rank = b.rank
  · cases a with
    | float x => simp [isFloatFree] at ha
    | list as =>
      cases b with
      | list bs => exact swap_cmpList ha hb
      | _ => simp [rank] at hrank
    | int a =>
      cases b with
      | float x => simp [isFloatFree] at hb
      | int b => exact Std.OrientedOrd.eq_swap.symm
      | _ => simp [rank] at hrank
    | _ =>
      cases b <;> first | rfl | exact Std.OrientedOrd.eq_swap.symm
  · rw [cmp_of_rank_ne hrank, cmp_of_rank_ne (Ne.symm hrank)]
    exact Std.OrientedOrd.eq_swap.symm

theorem swap_cmpList {as bs : List Value} (ha : areFloatFree as) (hb : areFloatFree bs) :
    (cmpList as bs).swap = cmpList bs as := by
  cases as with
  | nil => cases bs <;> rfl
  | cons a as =>
    cases bs with
    | nil => rfl
    | cons b bs =>
      simp only [areFloatFree, Bool.and_eq_true] at ha hb
      simp only [cmpList, Ordering.swap_then, swap_cmp ha.1 hb.1, swap_cmpList ha.2 hb.2]

end

mutual

theorem cmp_lt_trans {a b c : Value} (ha : a.isFloatFree) (hb : b.isFloatFree)
    (hc : c.isFloatFree) (hab : a.cmp b = .lt) (hbc : b.cmp c = .lt) : a.cmp c = .lt := by
  have hle := rank_le_of_cmp_lt hab
  have hle' := rank_le_of_cmp_lt hbc
  by_cases hrank : a.rank = c.rank
  · have hrank' : b.rank = c.rank := by omega
    cases a with
    | null =>
      cases b <;> cases c <;> simp [rank] at hrank hrank'
      exact hab
    | float x => simp [isFloatFree] at ha
    | list as =>
      cases b <;> cases c <;> simp [rank] at hrank hrank'
      exact cmpList_lt_trans ha hb hc hab hbc
    | int a =>
      cases b <;> cases c <;> simp [rank, isFloatFree] at hrank hrank' hb hc
      simp only [cmp, Number.cmp] at hab hbc ⊢
      exact Std.TransCmp.lt_trans hab hbc
    | _ =>
      cases b <;> cases c <;> simp [rank] at hrank hrank'
      simp only [cmp] at hab hbc ⊢
      exact Std.TransCmp.lt_trans hab hbc
  · rw [cmp_of_rank_ne hrank, Nat.compare_eq_lt]
    omega

theorem cmpList_lt_trans {as bs cs : List Value} (ha : areFloatFree as)
    (hb : areFloatFree bs) (hc : areFloatFree cs) (hab : cmpList as bs = .lt)
    (hbc : cmpList bs cs = .lt) : cmpList as cs = .lt := by
  cases bs with
  | nil => cases as <;> simp [cmpList] at hab
  | cons b bs =>
    cases cs with
    | nil => simp [cmpList] at hbc
    | cons c cs =>
      cases as with
      | nil => rfl
      | cons a as =>
        simp only [areFloatFree, Bool.and_eq_true] at ha hb hc
        simp only [cmpList, Ordering.then_eq_lt] at hab hbc ⊢
        rcases hab with hab | ⟨heq, hab⟩
        · rcases hbc with hbc | ⟨heq', -⟩
          · exact Or.inl (cmp_lt_trans ha.1 hb.1 hc.1 hab hbc)
          · rw [← eq_of_cmp_eq hb.1 hc.1 heq']
            exact Or.inl hab
        · rw [eq_of_cmp_eq ha.1 hb.1 heq]
          rcases hbc with hbc | ⟨heq', hbc⟩
          · exact Or.inl hbc
          · exact Or.inr ⟨heq', cmpList_lt_trans ha.2 hb.2 hc.2 hab hbc⟩

end

mutual

theorem cmp_self {a : Value} (ha : a.isFloatFree) : a.cmp a = .eq := by
  cases a with
  | float x => simp [isFloatFree] at ha
  | list as => exact cmpList_self ha
  | null => rfl
  | _ => exact Std.ReflOrd.compare_self

theorem cmpList_self {as : List Value} (ha : areFloatFree as) : cmpList as as = .eq := by
  cases as with
  | nil => rfl
  | cons a as =>
    simp only [areFloatFree, Bool.and_eq_true] at ha
    simp only [cmpList, cmp_self ha.1, cmpList_self ha.2, Ordering.then_self]

end

theorem cmp_eq_iff {a b : Value} (ha : a.isFloatFree) (hb : b.isFloatFree) :
    a.cmp b = .eq ↔ a = b := by
  constructor
  · exact eq_of_cmp_eq ha hb
  · rintro rfl
    exact cmp_self ha

theorem cmpList_eq_iff {as bs : List Value} (ha : areFloatFree as) (hb : areFloatFree bs) :
    cmpList as bs = .eq ↔ as = bs := by
  constructor
  · exact eq_of_cmpList_eq ha hb
  · rintro rfl
    exact cmpList_self ha

/-- Lists of values without doubles are equal as keys exactly if they are the same. -/
theorem sameList_iff {as bs : List Value} (ha : areFloatFree as) (hb : areFloatFree bs) :
    sameList as bs = true ↔ as = bs := by
  rw [sameList, beq_iff_eq]
  exact cmpList_eq_iff ha hb

/-- Values without doubles are equal in the order exactly if they are the same. -/
theorem same_iff {a b : Value} (ha : a.isFloatFree) (hb : b.isFloatFree) :
    a.same b = true ↔ a = b := by
  rw [same, beq_iff_eq]
  exact cmp_eq_iff ha hb

theorem cmpList_ne_gt_trans {as bs cs : List Value} (ha : areFloatFree as)
    (hb : areFloatFree bs) (hc : areFloatFree cs) (hab : cmpList as bs ≠ .gt)
    (hbc : cmpList bs cs ≠ .gt) : cmpList as cs ≠ .gt := by
  cases hlt : cmpList as bs with
  | gt => exact absurd hlt hab
  | eq => rwa [eq_of_cmpList_eq ha hb hlt]
  | lt =>
    cases hlt' : cmpList bs cs with
    | gt => exact absurd hlt' hbc
    | eq => rwa [← eq_of_cmpList_eq hb hc hlt']
    | lt => simp [cmpList_lt_trans ha hb hc hlt hlt']

/-- A list does not come before another one exactly if that one does not come after it. -/
theorem cmpList_ne_lt_iff {as bs : List Value} (ha : areFloatFree as) (hb : areFloatFree bs) :
    cmpList as bs ≠ .lt ↔ cmpList bs as ≠ .gt := by
  rw [← swap_cmpList ha hb]
  cases cmpList as bs <;> simp

theorem cmpList_ne_gt_total {as bs : List Value} (ha : areFloatFree as)
    (hb : areFloatFree bs) : cmpList as bs ≠ .gt ∨ cmpList bs as ≠ .gt := by
  rw [← cmpList_ne_lt_iff ha hb]
  cases cmpList as bs <;> simp

end Value
end TableQuery
