import Mathlib.Data.Nat.Digits.Defs
import TableQuery.Double.Text

/-!
# Doubles nearest to large numbers

From `2 ^ 63` on, doubles are `2 ^ 11` or more apart.  The numbers up to the middle of the gap
above `2 ^ 63` are rounded to it, and all greater ones to doubles beyond it.
-/

namespace TableQuery
namespace Double

variable {n m : Nat} {negative : Bool} {digits : List Char} {x : Double}

/-- The magnitude of `2 ^ 63`. -/
def boundaryMagnitude : Nat :=
  1086 * Nat.pow 2 52

theorem magnitude_ofMagnitude (h : m < Nat.pow 2 63) : (ofMagnitude negative m).magnitude = m := by
  have hpow : Nat.pow 2 63 = 9223372036854775808 := rfl
  rw [hpow] at h
  rw [magnitude, ofMagnitude, UInt64.toNat_ofNat', hpow]
  split <;> omega

/-! ## Rounded quotients -/

theorem div_le_roundedQuotient (n m : Nat) : n / m ≤ roundedQuotient n m := by
  rw [roundedQuotient]
  split
  · exact Nat.le_refl _
  · exact Nat.le_succ _
  · split
    · exact Nat.le_refl _
    · exact Nat.le_succ _

theorem roundedQuotient_eq_div (h : 2 * (n % m) ≤ m) (heven : n / m % 2 = 0) :
    roundedQuotient n m = n / m := by
  rw [roundedQuotient]
  split
  · rfl
  · next hgt => exact absurd h (Nat.not_le.mpr (Nat.compare_eq_gt.mp hgt))
  · rw [heven]
    rfl

theorem roundedQuotient_eq_succ (h : m < 2 * (n % m)) : roundedQuotient n m = n / m + 1 := by
  rw [roundedQuotient, Nat.compare_eq_gt.mpr h]

/-! ## Rounding natural numbers -/

theorem leadingPower_one (hn : n ≠ 0) : leadingPower n 1 = n.log2 := by
  have hlog : Nat.log2 1 = 0 := by decide
  have hle : 2 ^ n.log2 ≤ n := Nat.log2_self_le hn
  rw [leadingPower, hlog]
  simp [hle]

/-- A number of more than fifty-two bits is cut to fifty-three of them. -/
theorem ofRatio_one (h : 52 ≤ n.log2) :
    ofRatio negative n 1 = ofMagnitude negative
      (min ((n.log2 - 52 + 1074) * Nat.pow 2 52 + roundedQuotient n (2 ^ (n.log2 - 52)))
        infiniteMagnitude) := by
  have hn : n ≠ 0 := by
    rintro rfl
    exact absurd h (by decide)
  obtain ⟨e, he⟩ : ∃ e : Nat, n.log2 = e + 52 := ⟨n.log2 - 52, by omega⟩
  have hunit : max ((n.log2 : Int) - 52) (-1074) = (e : Int) := by omega
  have hbias : ((e : Int) + 1074).toNat = e + 1074 := by omega
  have hscale : (-(e : Int)).toNat = 0 := by omega
  rw [ofRatio, leadingPower_one hn, hunit, hbias, hscale, he, Int.toNat_natCast, Nat.add_sub_cancel]
  simp

theorem ofRatio_one_of_le (hlow : 2 ^ 63 ≤ n) (hhigh : n ≤ 2 ^ 63 + 1024) :
    ofRatio negative n 1 = ofMagnitude negative boundaryMagnitude := by
  have hlog : n.log2 = 63 := (Nat.log2_eq_iff (by omega)).mpr ⟨hlow, by omega⟩
  have hround : roundedQuotient n (2 ^ 11) = 2 ^ 52 := by
    rw [roundedQuotient_eq_div (by omega) (by omega)]
    omega
  rw [ofRatio_one (by omega), hlog, hround]
  rfl

theorem lt_magnitude_ofRatio_one (h : 2 ^ 63 + 1024 < n) :
    boundaryMagnitude < (ofRatio negative n 1).magnitude := by
  have hn : n ≠ 0 := by omega
  have hlog : 63 ≤ n.log2 := (Nat.le_log2 hn).mpr (by omega)
  have hinfinite : infiniteMagnitude = 9218868437227405312 := rfl
  have hpow : Nat.pow 2 52 = 4503599627370496 := rfl
  rw [ofRatio_one (by omega), magnitude_ofMagnitude
    (Nat.lt_of_le_of_lt (Nat.min_le_right _ _) (by decide)), boundaryMagnitude, hinfinite, hpow]
  rcases Nat.eq_or_lt_of_le hlog with hlog | hlog
  · -- The next double is nearer, or the fraction is even longer.
    have hround : 2 ^ 52 < roundedQuotient n (2 ^ (63 - 52)) := by
      rcases Nat.lt_or_ge (2 ^ 52) (n / 2 ^ 11) with hlonger | hshort
      · exact Nat.lt_of_lt_of_le hlonger (div_le_roundedQuotient _ _)
      · rw [roundedQuotient_eq_succ (by omega)]
        omega
    rw [← hlog]
    omega
  · have hround : 2 ^ 52 ≤ roundedQuotient n (2 ^ (n.log2 - 52)) := by
      refine Nat.le_trans ?_ (div_le_roundedQuotient _ _)
      rw [Nat.le_div_iff_mul_le (Nat.two_pow_pos _), ← Nat.pow_add]
      exact Nat.le_trans (Nat.pow_le_pow_right (by decide) (by omega)) (Nat.log2_self_le hn)
    omega

/-! ## Rounding digits -/

theorem nearest_eq_ofRatio (hzero : digitsValue digits ≠ 0)
    (hcount : digitCount (digitsValue digits) ≤ 400) :
    nearest negative digits 0 = ofRatio negative (digitsValue digits) 1 := by
  have hsmall : ¬((digitCount (digitsValue digits) : Int) + 0 < -400) := by omega
  have hlarge : ¬(400 < (digitCount (digitsValue digits) : Int) + 0) := by omega
  rw [nearest]
  simp only [beq_iff_eq, Bool.or_eq_true, decide_eq_true_eq, hzero, hsmall, hlarge, or_self,
    if_false]
  simp

/-- The numbers from `2 ^ 63` to the middle of the gap above it are rounded to it. -/
theorem nearest_of_le (hlow : 2 ^ 63 ≤ digitsValue digits)
    (hhigh : digitsValue digits ≤ 2 ^ 63 + 1024) :
    nearest negative digits 0 = ofMagnitude negative boundaryMagnitude := by
  have hcount : digitCount (digitsValue digits) ≤ 20 :=
    Nat.toDigits_length 10 _ 20 (by decide) (by omega)
  rw [nearest_eq_ofRatio (by omega) (by omega), ofRatio_one_of_le hlow hhigh]

/-- Greater numbers are rounded to greater doubles or to infinity. -/
theorem lt_magnitude_nearest (h : 2 ^ 63 + 1024 < digitsValue digits) :
    boundaryMagnitude < (nearest negative digits 0).magnitude := by
  rcases Nat.lt_or_ge 400 (digitCount (digitsValue digits)) with hcount | hcount
  · have hzero : digitsValue digits ≠ 0 := by omega
    have hsmall : ¬((digitCount (digitsValue digits) : Int) + 0 < -400) := by omega
    have hlarge : 400 < (digitCount (digitsValue digits) : Int) + 0 := by omega
    rw [nearest]
    simp only [beq_iff_eq, Bool.or_eq_true, decide_eq_true_eq, hzero, hsmall, hlarge, or_self,
      if_false, if_true]
    rw [infinity, magnitude_ofMagnitude (by decide)]
    decide
  · rw [nearest_eq_ofRatio (by omega) hcount]
    exact lt_magnitude_ofRatio_one h

/-! ## Integer parts -/

theorem truncate_boundary :
    (ofMagnitude false boundaryMagnitude).truncate = 2 ^ 63 ∧
      (ofMagnitude true boundaryMagnitude).truncate = -2 ^ 63 := by
  decide

theorem decode_of_lt (h : boundaryMagnitude < x.magnitude) :
    x.decode = (x.magnitude % Nat.pow 2 52 + Nat.pow 2 52,
      ((x.magnitude / Nat.pow 2 52 : Nat) : Int) - 1075) := by
  have hpow : Nat.pow 2 52 = 4503599627370496 := rfl
  rw [boundaryMagnitude, hpow] at h
  rw [decode, hpow]
  simp only [beq_iff_eq]
  exact if_neg (by omega)

/-- The integer part of a greater double is greater, too. -/
theorem lt_natAbs_truncate (h : boundaryMagnitude < x.magnitude) : 2 ^ 63 < x.truncate.natAbs := by
  have hpow : Nat.pow 2 52 = 4503599627370496 := rfl
  have hdecode := decode_of_lt h
  generalize hexponent : x.magnitude / Nat.pow 2 52 = exponent at hdecode
  generalize hfraction : x.magnitude % Nat.pow 2 52 = fraction at hdecode
  rw [boundaryMagnitude] at h
  rw [hpow] at h hexponent hfraction hdecode
  have hwhole : x.truncate.natAbs =
      (fraction + 4503599627370496) * 2 ^ ((exponent : Int) - 1075).toNat := by
    have hunit : 0 ≤ (exponent : Int) - 1075 := by omega
    rw [truncate, hdecode]
    dsimp only
    rw [if_pos hunit]
    split
    · rw [Int.natAbs_neg, Int.natAbs_natCast]
      rfl
    · rw [Int.natAbs_natCast]
      rfl
  rw [hwhole]
  rcases Nat.lt_or_ge 1086 exponent with hgreater | hle
  · have hscale : 2 ^ 12 ≤ 2 ^ ((exponent : Int) - 1075).toNat :=
      Nat.pow_le_pow_right (by decide) (by omega)
    exact Nat.lt_of_lt_of_le (by decide)
      (Nat.mul_le_mul (Nat.le_add_left 4503599627370496 fraction) hscale)
  · have hscale : ((exponent : Int) - 1075).toNat = 11 := by omega
    rw [hscale]
    omega

end Double
end TableQuery
