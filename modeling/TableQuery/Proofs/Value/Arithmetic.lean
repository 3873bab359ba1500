import Mathlib.Data.Rat.Floor
import TableQuery.Expression.Evaluation
import TableQuery.Proofs.Text.Integer

/-!
# Arithmetic on integers

An operation on integers gives the exact result, or says that it is out of range.  The machine
rounds quotients towards zero; one correction rounds them down, and another makes remainders
what these quotients leave.  There is one exception: the remainder of the least integer by minus
one is zero, but it is refused, since the quotient is out of range.
-/

namespace TableQuery
namespace Value

/-- Whether a result is an exact integer, or says that this integer is out of range. -/
def IsExactly (n : Int) (result : Except EvalError Value) : Prop :=
  (∀ m : Int64, m.toInt = n → result = .ok (int m)) ∧
    ((∀ m : Int64, m.toInt ≠ n) → result = .error .integerOverflow)

theorem isExactly_exactly (n : Int) : IsExactly n (exactly n) := by
  constructor
  · rintro m rfl
    rw [exactly, int64?_toInt, inRange]
  · intro hnone
    rw [exactly, int64?_eq_none_iff.mpr hnone, inRange]

/-! ## Quotients rounded down -/

theorem floor_div_eq_fdiv (a b : Int) : ⌊(a : ℚ) / b⌋ = a.fdiv b := by
  obtain ⟨n, rfl | rfl⟩ := b.eq_nat_or_neg
  · rw [Int.cast_natCast, Rat.floor_intCast_div_natCast,
      Int.fdiv_eq_ediv_of_nonneg _ (Int.natCast_nonneg n)]
  · have hneg : (a : ℚ) / (-(n : Int) : Int) = (-a : Int) / (n : ℚ) := by
      push_cast
      rw [div_neg, neg_div]
    rw [hneg, Rat.floor_intCast_div_natCast, ← Int.neg_fdiv_neg, Int.neg_neg,
      Int.fdiv_eq_ediv_of_nonneg _ (Int.natCast_nonneg n)]

theorem sub_mul_floor_div_eq_fmod (a b : Int) : a - b * ⌊(a : ℚ) / b⌋ = a.fmod b := by
  rw [floor_div_eq_fdiv, Int.fmod_def]

/-- Only one quotient is out of range. -/
theorem eq_of_int64?_fdiv_eq_none {a b : Int64} (h : int64? (a.toInt.fdiv b.toInt) = none) :
    a = Int64.minValue ∧ b = -1 := by
  have hmin : Int64.minValue.toInt = -9223372036854775808 := rfl
  have hmax : Int64.maxValue.toInt = 9223372036854775807 := rfl
  have hone : (-1 : Int64).toInt = -1 := rfl
  have hlow := a.minValue_le_toInt
  have hhigh := a.toInt_le
  -- The quotient is no longer than the dividend, so it is the one beyond the greatest integer.
  have hlength := Int.natAbs_fdiv_le_natAbs a.toInt b.toInt
  rw [int64?_eq_none_iff_range] at h
  rw [← Int64.toInt_inj, ← Int64.toInt_inj, hmin, hone]
  have hquotient : a.toInt.fdiv b.toInt = 9223372036854775808 := by omega
  have hdividend : a.toInt = -9223372036854775808 := by omega
  have hsplit := Int.mul_fdiv_add_fmod a.toInt b.toInt
  rw [hquotient, hdividend] at hsplit
  refine ⟨hdividend, ?_⟩
  rcases Int.lt_trichotomy b.toInt 0 with hneg | hzero | hpos
  · have hrest := Int.fmod_nonneg_of_pos 9223372036854775808 (Int.neg_pos_of_neg hneg)
    have hflip := Int.neg_fmod_neg (-9223372036854775808) b.toInt
    rw [Int.neg_neg] at hflip
    omega
  · rw [hzero, Int.fdiv_zero] at hquotient
    omega
  · have hrest := Int.fmod_nonneg_of_pos (-9223372036854775808) hpos
    omega

/-! ## Quotients rounded towards zero, and their corrections -/

/-- Rounding down differs from rounding towards zero if there is a remainder and one of the
numbers is negative. -/
theorem fdiv_eq_tdiv_sub_ite {a b : Int} (hb : b ≠ 0) :
    a.fdiv b = if a.tmod b ≠ 0 ∧ ¬(a < 0 ↔ b < 0) then a.tdiv b - 1 else a.tdiv b := by
  rw [Int.fdiv_eq_tdiv]
  by_cases hrest : a.tmod b = 0
  · rw [if_pos (Int.dvd_iff_tmod_eq_zero.mpr hrest), if_neg (fun h => h.1 hrest), Int.sub_zero]
  · have ha : a ≠ 0 := by
      rintro rfl
      exact hrest (Int.zero_tmod b)
    rw [if_neg (mt Int.dvd_iff_tmod_eq_zero.mp hrest)]
    rcases Int.lt_or_gt_of_ne ha with ha | ha <;> rcases Int.lt_or_gt_of_ne hb with hb | hb
    · simp [ha, hb, Int.not_le.mpr, Int.sign_eq_neg_one_of_neg hb]
    · simp [hrest, ha, hb.le, hb.not_gt, Int.not_le.mpr ha, Int.sign_eq_one_of_pos hb]
    · simp [hrest, ha.le, ha.not_gt, hb, Int.not_le.mpr hb]
    · simp [ha.le, ha.not_gt, hb.le, hb.not_gt]

/-- A remainder that is left by rounding towards zero has the sign of the dividend. -/
theorem tmod_neg_iff {a b : Int} (hrest : a.tmod b ≠ 0) : a.tmod b < 0 ↔ a < 0 := by
  constructor
  · intro hneg
    by_contra ha
    exact absurd (Int.tmod_nonneg b (Int.not_lt.mp ha)) (Int.not_le.mpr hneg)
  · intro ha
    have hflip := Int.tmod_nonneg b (Int.neg_nonneg_of_nonpos ha.le)
    rw [Int.neg_tmod] at hflip
    omega

theorem fmod_eq_tmod_add_ite {a b : Int} (hb : b ≠ 0) :
    a.fmod b = if a.tmod b ≠ 0 ∧ ¬(a.tmod b < 0 ↔ b < 0) then a.tmod b + b else a.tmod b := by
  have hsigns : (a.tmod b ≠ 0 ∧ ¬(a.tmod b < 0 ↔ b < 0)) ↔ (a.tmod b ≠ 0 ∧ ¬(a < 0 ↔ b < 0)) :=
    and_congr_right fun hrest => by rw [tmod_neg_iff hrest]
  have hrest := Int.tmod_def a b
  rw [Int.fmod_def, fdiv_eq_tdiv_sub_ite hb]
  simp only [hsigns]
  split
  · rw [Int.mul_sub, Int.mul_one]
    omega
  · exact hrest.symm

theorem toInt_eq_zero_iff {b : Int64} : b.toInt = 0 ↔ b = 0 :=
  Int64.toInt_inj (y := 0)

theorem hasQuotient_iff {a b : Int64} :
    hasQuotient a b ↔ b ≠ 0 ∧ ¬(a = Int64.minValue ∧ b = -1) := by
  simp only [hasQuotient, Bool.and_eq_true, bne_iff_ne, Bool.not_eq_true', Bool.and_eq_false_iff,
    beq_eq_false_iff_ne, not_and_or]

theorem signsDiffer_iff {a b : Int64} : signsDiffer a b ↔ ¬(a.toInt < 0 ↔ b.toInt < 0) := by
  have hneg : ∀ n : Int64, n < 0 ↔ n.toInt < 0 := fun n => Int64.lt_iff_toInt_lt
  simp [signsDiffer, hneg]

/-- The quotient, one less than what is rounded towards zero where there is a negative
quotient with a remainder, is the exact one rounded down. -/
theorem floorQuotient?_eq {a b : Int64} (hb : b ≠ 0) :
    floorQuotient? a b = int64? (a.toInt.fdiv b.toInt) := by
  by_cases hrange : a = Int64.minValue ∧ b = -1
  · obtain ⟨rfl, rfl⟩ := hrange
    rfl
  · obtain ⟨q, hq⟩ := Option.ne_none_iff_exists'.mp (mt eq_of_int64?_fdiv_eq_none hrange)
    have hfloor := int64?_eq_some_iff.mp hq
    rw [fdiv_eq_tdiv_sub_ite (mt toInt_eq_zero_iff.mp hb)] at hfloor
    have htrunc : (a / b).toInt = a.toInt.tdiv b.toInt := by
      rcases not_and_or.mp hrange with ha | hb
      · exact Int64.toInt_div_of_ne_left a b ha
      · exact Int64.toInt_div_of_ne_right a b hb
    have hcorrected : (a % b != 0 && signsDiffer a b) = true ↔
        a.toInt.tmod b.toInt ≠ 0 ∧ ¬(a.toInt < 0 ↔ b.toInt < 0) := by
      rw [Bool.and_eq_true, signsDiffer_iff, bne_iff_ne, ne_eq, ← toInt_eq_zero_iff,
        Int64.toInt_mod]
    rw [hq, floorQuotient?, quotient?, if_pos (hasQuotient_iff.mpr ⟨hb, hrange⟩), Option.map_some,
      Option.some_inj, ← Int64.toInt_inj]
    simp only [hcorrected]
    split at hfloor
    · rw [if_pos ‹_›, Int64.toInt_sub, htrunc, Int64.toInt_one, ← hfloor]
      exact Int64.toInt_bmod q
    · rw [if_neg ‹_›, htrunc, hfloor]

/-- A remainder lies between zero and the divisor, so it is in range. -/
theorem exists_int64?_fmod_eq_some {a b : Int64} (hb : b ≠ 0) :
    ∃ r, int64? (a.toInt.fmod b.toInt) = some r := by
  have hmin : Int64.minValue.toInt = -9223372036854775808 := rfl
  have hmax : Int64.maxValue.toInt = 9223372036854775807 := rfl
  have hlow := b.minValue_le_toInt
  have hhigh := b.toInt_le
  rw [← Option.ne_none_iff_exists', ne_eq, int64?_eq_none_iff_range, not_not]
  rcases Int.lt_or_gt_of_ne (mt toInt_eq_zero_iff.mp hb) with hneg | hpos
  · have hflip := Int.neg_fmod_neg a.toInt b.toInt
    have hnonneg := Int.fmod_nonneg_of_pos (-a.toInt) (Int.neg_pos_of_neg hneg)
    have hlt := Int.fmod_lt_of_pos (-a.toInt) (Int.neg_pos_of_neg hneg)
    omega
  · have hnonneg := Int.fmod_nonneg_of_pos a.toInt hpos
    have hlt := Int.fmod_lt_of_pos a.toInt hpos
    omega

/-- The remainder, corrected by the divisor where their signs differ, is what the quotient
rounded down leaves. -/
theorem floorRemainder?_eq {a b : Int64} (hb : b ≠ 0)
    (hrange : ¬(a = Int64.minValue ∧ b = -1)) :
    floorRemainder? a b = int64? (a.toInt.fmod b.toInt) := by
  obtain ⟨r, hr⟩ := exists_int64?_fmod_eq_some (a := a) hb
  have hfloor := int64?_eq_some_iff.mp hr
  rw [fmod_eq_tmod_add_ite (mt toInt_eq_zero_iff.mp hb)] at hfloor
  have hcorrected : (a % b != 0 && signsDiffer (a % b) b) = true ↔
      a.toInt.tmod b.toInt ≠ 0 ∧ ¬(a.toInt.tmod b.toInt < 0 ↔ b.toInt < 0) := by
    rw [Bool.and_eq_true, signsDiffer_iff, bne_iff_ne, ne_eq, ← toInt_eq_zero_iff, Int64.toInt_mod]
  rw [hr, floorRemainder?, remainder?, if_pos (hasQuotient_iff.mpr ⟨hb, hrange⟩), Option.map_some,
    Option.some_inj, ← Int64.toInt_inj]
  simp only [hcorrected]
  split at hfloor
  · rw [if_pos ‹_›, Int64.toInt_add, Int64.toInt_mod, ← hfloor]
    exact Int64.toInt_bmod r
  · rw [if_neg ‹_›, Int64.toInt_mod, hfloor]

/-! ## Operations -/

theorem applyBinary_floorDiv {a b : Int64} (hb : b.toInt ≠ 0) :
    applyBinary .floorDiv (int a) (int b) = exactly (a.toInt.fdiv b.toInt) := by
  have hb' := mt toInt_eq_zero_iff.mpr hb
  have hdiv : applyBinary .floorDiv (int a) (int b) = integerArithmetic .floorDiv a b := rfl
  rw [hdiv, integerArithmetic, if_neg (mt beq_iff_eq.mp hb'), floorQuotient?_eq hb', exactly]

/-- A remainder is exact if the quotient is in range. -/
theorem applyBinary_mod {a b : Int64} (hb : b.toInt ≠ 0)
    (hrange : ¬(a = Int64.minValue ∧ b = -1)) :
    applyBinary .mod (int a) (int b) = exactly (a.toInt.fmod b.toInt) := by
  have hb' := mt toInt_eq_zero_iff.mpr hb
  have hmod : applyBinary .mod (int a) (int b) = integerArithmetic .mod a b := rfl
  rw [hmod, integerArithmetic, if_neg (mt beq_iff_eq.mp hb'), floorRemainder?_eq hb' hrange,
    exactly]

theorem exactly_ne_divisionByZero (n : Int) : exactly n ≠ .error .divisionByZero := by
  unfold exactly inRange
  split
  · exact nofun
  · exact nofun

end Value

namespace Bound

open Value

variable {row : Row} {params : List Value} {l r : Bound} {a b : Int64} {op : BinaryOp}

theorem eval_binary (hl : l.eval row params = .ok (.int a)) (hr : r.eval row params = .ok (.int b))
    (hand : op ≠ .and) (hor : op ≠ .or) :
    (binary op l r).eval row params = applyBinary op (.int a) (.int b) := by
  rw [eval.eq_def]
  dsimp only
  rw [hl]
  cases op with
  | and => exact absurd rfl hand
  | or => exact absurd rfl hor
  | _ => rw [hr]; rfl

/-- Arithmetic on integers is exact, or says that the exact result is out of range.  Only a
division by zero is refused as one.  Alone among the exact results that are in range, the
remainder of the least integer by minus one is refused, like the quotient. -/
theorem eval_isExactly (hl : l.eval row params = .ok (.int a))
    (hr : r.eval row params = .ok (.int b)) :
    IsExactly (a.toInt + b.toInt) ((binary .add l r).eval row params) ∧
    IsExactly (a.toInt - b.toInt) ((binary .sub l r).eval row params) ∧
    IsExactly (a.toInt * b.toInt) ((binary .mul l r).eval row params) ∧
    IsExactly (-a.toInt) ((unary .minus l).eval row params) ∧
    (b.toInt ≠ 0 → IsExactly ⌊(a.toInt : ℚ) / b.toInt⌋ ((binary .floorDiv l r).eval row params)) ∧
    ((binary .floorDiv l r).eval row params = .error .divisionByZero ↔ b.toInt = 0) ∧
    (b.toInt ≠ 0 → ¬(a = Int64.minValue ∧ b = -1) →
      IsExactly (a.toInt - b.toInt * ⌊(a.toInt : ℚ) / b.toInt⌋)
        ((binary .mod l r).eval row params)) ∧
    (a = Int64.minValue ∧ b = -1 →
      (binary .mod l r).eval row params = .error .integerOverflow) ∧
    ((binary .mod l r).eval row params = .error .divisionByZero ↔ b.toInt = 0) := by
  have hbinary : ∀ op, op ≠ .and → op ≠ .or →
      (binary op l r).eval row params = applyBinary op (.int a) (.int b) :=
    fun op => eval_binary hl hr
  rw [hbinary .add (by decide) (by decide), hbinary .sub (by decide) (by decide),
    hbinary .mul (by decide) (by decide), hbinary .floorDiv (by decide) (by decide),
    hbinary .mod (by decide) (by decide), sub_mul_floor_div_eq_fmod, floor_div_eq_fdiv]
  refine ⟨isExactly_exactly _, isExactly_exactly _, isExactly_exactly _, ?_, fun hb => ?_, ?_,
    fun hb hrange => ?_, ?_, ?_⟩
  · rw [eval, hl]
    exact isExactly_exactly _
  · rw [applyBinary_floorDiv hb]
    exact isExactly_exactly _
  · by_cases hb : b.toInt = 0
    · refine iff_of_true ?_ hb
      obtain rfl := toInt_eq_zero_iff.mp hb
      rfl
    · refine iff_of_false ?_ hb
      rw [applyBinary_floorDiv hb]
      exact exactly_ne_divisionByZero _
  · rw [applyBinary_mod hb hrange]
    exact isExactly_exactly _
  · rintro ⟨rfl, rfl⟩
    rfl
  · by_cases hb : b.toInt = 0
    · refine iff_of_true ?_ hb
      obtain rfl := toInt_eq_zero_iff.mp hb
      rfl
    · refine iff_of_false ?_ hb
      by_cases hrange : a = Int64.minValue ∧ b = -1
      · obtain ⟨rfl, rfl⟩ := hrange
        rintro ⟨⟩
      · rw [applyBinary_mod hb hrange]
        exact exactly_ne_divisionByZero _

/-- Minus seven and three: the quotient is rounded down to minus three, which leaves two. -/
theorem eval_isExactly_minusSeven :
    let row := Row.empty
    let l := Bound.unary .minus (.literal (.int 7))
    let r := Bound.literal (.int 3)
    l.eval row [] = .ok (.int (-7)) ∧ r.eval row [] = .ok (.int 3) ∧
      IsExactly (-21) ((binary .mul l r).eval row []) ∧
      IsExactly ⌊(-7 : ℚ) / 3⌋ ((binary .floorDiv l r).eval row []) ∧
      IsExactly (-7 - 3 * ⌊(-7 : ℚ) / 3⌋) ((binary .mod l r).eval row []) := by
  intro row l r
  have hl : l.eval row [] = .ok (.int (-7)) := rfl
  have hr : r.eval row [] = .ok (.int 3) := rfl
  obtain ⟨-, -, hmul, -, hdiv, -, hmod, -, -⟩ := eval_isExactly hl hr
  exact ⟨hl, hr, hmul, hdiv (by decide), hmod (by decide) (by decide)⟩

/-- The remainder of the least integer by minus one is refused, although it is zero. -/
theorem eval_mod_minValue :
    let row := Row.empty
    let l := Bound.literal (.int Int64.minValue)
    let r := Bound.unary .minus (.literal (.int 1))
    l.eval row [] = .ok (.int Int64.minValue) ∧ r.eval row [] = .ok (.int (-1)) ∧
      Int64.minValue.toInt - (-1) * ⌊(Int64.minValue.toInt : ℚ) / (-1 : Int)⌋ = (0 : Int64).toInt ∧
      (binary .mod l r).eval row [] = .error .integerOverflow := by
  refine ⟨rfl, rfl, ?_, rfl⟩
  rw [sub_mul_floor_div_eq_fmod]
  rfl

end Bound
end TableQuery
