import TableQuery.Value

/-!
# Equality of values

Two values are the same if they have been made in the same way, down to the bits of their
doubles.
-/

namespace TableQuery
namespace Value

mutual

/-- Whether two values are the same. -/
def beq : Value → Value → Bool
  | null, null => true
  | bool a, bool b => a == b
  | int a, int b => a == b
  | float a, float b => a == b
  | text a, text b => a == b
  | list a, list b => beqList a b
  | _, _ => false

/-- Whether two lists hold the same values. -/
def beqList : List Value → List Value → Bool
  | [], [] => true
  | a :: as, b :: bs => beq a b && beqList as bs
  | _, _ => false

end

mutual

theorem beq_eq_true_iff {a b : Value} : a.beq b = true ↔ a = b := by
  cases a with
  | list as =>
    cases b with
    | list bs => simp [beq, beqList_eq_true_iff]
    | _ => simp [beq]
  | _ => cases b <;> simp [beq]

theorem beqList_eq_true_iff {as bs : List Value} : beqList as bs = true ↔ as = bs := by
  cases as with
  | nil => cases bs <;> simp [beqList]
  | cons a as =>
    cases bs with
    | nil => simp [beqList]
    | cons b bs => simp [beqList, beq_eq_true_iff, beqList_eq_true_iff]

end

instance : DecidableEq Value := fun _ _ =>
  decidable_of_iff _ beq_eq_true_iff

end Value
end TableQuery
