import TableQuery.Proofs.Double.Integral
import TableQuery.Proofs.Value.Order

/-!
# Values that are hashed alike

Values that are hashed alike are equal in the order of values.  The converse fails where an
integer meets the double that it is rounded to.
-/

namespace TableQuery
namespace Value

/-- The key of the double that a number is compared as, if the value is a number. -/
def numberKey? : Value → Option Int
  | int n => some (Double.ofInt n.toInt).key
  | float x => some x.key
  | _ => none

/-- Numbers that are compared as doubles are equal if these have one key. -/
theorem cmp_eq_of_numberKey? {a b : Value} {key : Int} (ha : a.numberKey? = some key)
    (hb : b.numberKey? = some key) (hint : ∀ n m, a = int n → b = int m → n = m) :
    a.cmp b = .eq := by
  cases a with
  | int n =>
    cases b with
    | int m =>
      obtain rfl := hint n m rfl rfl
      exact Std.ReflOrd.compare_self
    | float y => exact Std.compare_eq_iff_eq.mpr (Option.some.inj (ha.trans hb.symm))
    | _ => cases hb
  | float x =>
    cases b with
    | int m => exact Std.compare_eq_iff_eq.mpr (Option.some.inj (ha.trans hb.symm))
    | float y => exact Std.compare_eq_iff_eq.mpr (Option.some.inj (ha.trans hb.symm))
    | _ => cases hb
  | _ => cases ha

/-- A value is hashed as a number with the same key. -/
theorem numberKey?_hashed (a : Value) : a.hashed.numberKey? = a.numberKey? := by
  cases a with
  | float x =>
    rw [hashed]
    cases hinteger : x.integral? with
    | none => rfl
    | some n => exact congrArg some (Double.key_ofInt_of_integral? hinteger)
  | list items => rw [hashed]; rfl
  | _ => rfl

mutual

/-- Values that are hashed alike are equal in the order of values. -/
theorem cmp_eq_of_hashed_eq {a b : Value} (h : a.hashed = b.hashed) : a.cmp b = .eq := by
  have hkeys : a.numberKey? = b.numberKey? := by
    rw [← numberKey?_hashed a, h, numberKey?_hashed]
  cases hkey : a.numberKey? with
  | some key =>
    refine cmp_eq_of_numberKey? hkey (hkeys.symm.trans hkey) ?_
    rintro n m rfl rfl
    exact int.inj h
  | none =>
    rw [hkey] at hkeys
    cases a with
    | int | float => cases hkey
    | list as =>
      cases b with
      | list bs =>
        rw [hashed, hashed] at h
        exact cmpList_eq_of_hashedAll_eq (list.inj h)
      | int | float => cases hkeys
      | _ => cases h
    | _ =>
      cases b with
      | int | float => cases hkeys
      | _ => cases h <;> exact cmp_self rfl

theorem cmpList_eq_of_hashedAll_eq {as bs : List Value} (h : hashedAll as = hashedAll bs) :
    cmpList as bs = .eq := by
  cases as with
  | nil =>
    cases bs with
    | nil => rfl
    | cons b bs => cases h
  | cons a as =>
    cases bs with
    | nil => cases h
    | cons b bs =>
      obtain ⟨hfirst, hothers⟩ := List.cons.inj h
      rw [cmpList, cmp_eq_of_hashed_eq hfirst, cmpList_eq_of_hashedAll_eq hothers]
      rfl

end

end Value
end TableQuery
