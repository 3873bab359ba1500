import TableQuery.Proofs.Double.Nearest
import TableQuery.Value.Hash

/-!
# Doubles that are integers

An integer with at most fifty-three bits between its first one and its last one is not
changed when it is rounded to a double.  So a double without a fraction is the one that its
integer part is rounded to.
-/

namespace TableQuery
namespace Double

variable {x : Double} {n m : Nat} {unit : Int} {negative : Bool}

theorem key_ofMagnitude (h : m < Nat.pow 2 63) :
    (ofMagnitude negative m).key = if negative then -(m : Int) else m := by
  have hpow : Nat.pow 2 63 = 9223372036854775808 := rfl
  have hnegative : (ofMagnitude negative m).isNegative = negative := by
    rw [hpow] at h
    rw [isNegative, ofMagnitude, UInt64.toNat_ofNat', hpow]
    cases negative <;> simp <;> omega
  rw [key, magnitude_ofMagnitude h, hnegative]

theorem log2_mul_two_pow (hn : n ≠ 0) (k : Nat) : (n * 2 ^ k).log2 = n.log2 + k := by
  have hpos : n * 2 ^ k ≠ 0 := Nat.mul_ne_zero hn (Nat.two_pow_pos k).ne'
  rw [Nat.log2_eq_iff hpos]
  constructor
  · rw [Nat.pow_add]
    exact Nat.mul_le_mul_right _ (Nat.log2_self_le hn)
  · rw [Nat.add_right_comm, Nat.pow_add]
    exact Nat.mul_lt_mul_of_pos_right Nat.lt_log2_self (Nat.two_pow_pos k)

theorem roundedQuotient_mul_self {d : Nat} (hd : 0 < d) : roundedQuotient (m * d) d = m := by
  rw [roundedQuotient, Nat.mul_mod_left, Nat.mul_div_cancel m hd, Nat.mul_zero,
    Nat.compare_eq_lt.mpr hd]

/-- An integer that is a power of two times fifty-three bits is not rounded. -/
theorem ofRatio_one_of_scaled (hn : n ≠ 0) (hlow : 2 ^ 52 ≤ m) (hhigh : m < 2 ^ 53)
    (hscaled : n * 2 ^ (-unit).toNat = m * 2 ^ unit.toNat) :
    ofRatio negative n 1 =
      ofMagnitude negative (min ((unit + 1074).toNat * Nat.pow 2 52 + m) infiniteMagnitude) := by
  have hm : m.log2 = 52 := (Nat.log2_eq_iff (by omega)).mpr ⟨hlow, hhigh⟩
  have hlog := congrArg Nat.log2 hscaled
  rw [log2_mul_two_pow hn, log2_mul_two_pow (by omega), hm] at hlog
  have hunit : max ((n.log2 : Int) - 52) (-1074) = unit := by omega
  have hround : roundedQuotient (n * Nat.pow 2 (-unit).toNat) (1 * Nat.pow 2 unit.toNat) = m := by
    rw [Nat.one_mul, show n * Nat.pow 2 (-unit).toNat = m * Nat.pow 2 unit.toNat from hscaled]
    exact roundedQuotient_mul_self (Nat.two_pow_pos _)
  rw [ofRatio, leadingPower_one hn, hunit, hround]

theorem natAbs_truncate {q : Int} (hdecode : x.decode = (m, q)) :
    x.truncate.natAbs =
      if 0 ≤ q then m * 2 ^ q.toNat else m / 2 ^ (-q).toNat := by
  rw [truncate, hdecode]
  dsimp only
  generalize (if 0 ≤ q then m * Nat.pow 2 q.toNat else m / Nat.pow 2 (-q).toNat) = whole
  split
  · rw [Int.natAbs_neg, Int.natAbs_natCast]
  · rw [Int.natAbs_natCast]

theorem truncate_eq_natAbs :
    x.truncate = if x.isNegative then -(x.truncate.natAbs : Int) else x.truncate.natAbs := by
  rcases hdecode : x.decode with ⟨m, q⟩
  rw [natAbs_truncate hdecode, truncate, hdecode]
  rfl

/-- The bits of a double other than zero that has no fraction. -/
theorem exists_scaled_truncate (hwhole : x.isWhole) (hne : x.magnitude ≠ 0) :
    ∃ (m : Nat) (unit : Int), 2 ^ 52 ≤ m ∧ m < 2 ^ 53 ∧
      x.truncate.natAbs * 2 ^ (-unit).toNat = m * 2 ^ unit.toNat ∧
      (unit + 1074).toNat * Nat.pow 2 52 + m = x.magnitude := by
  have hpow : Nat.pow 2 52 = 4503599627370496 := rfl
  by_cases hexponent : x.magnitude / Nat.pow 2 52 = 0
  · -- Below the least exponent all numbers but zero are fractions.
    have hdecode : x.decode = (x.magnitude % Nat.pow 2 52, -1074) := by
      simp only [decode, hexponent, BEq.rfl, if_true]
    have hsmall : ∀ k, 52 < k → x.magnitude % Nat.pow 2 52 < Nat.pow 2 k := fun k hk =>
      Nat.lt_trans (Nat.mod_lt _ (by decide)) (Nat.pow_lt_pow_right (by decide) hk)
    have hfraction : x.magnitude % Nat.pow 2 52 = 0 := by
      rw [isWhole, hdecode] at hwhole
      dsimp only at hwhole
      rw [Nat.mod_eq_of_lt (hsmall _ (by decide))] at hwhole
      simpa using hwhole
    have hdivision := Nat.div_add_mod x.magnitude (Nat.pow 2 52)
    rw [hexponent, hfraction] at hdivision
    exact absurd hdivision.symm hne
  · generalize hm : x.magnitude % Nat.pow 2 52 + Nat.pow 2 52 = m
    generalize hunit : ((x.magnitude / Nat.pow 2 52 : Nat) : Int) - 1075 = unit
    have hdecode : x.decode = (m, unit) := by
      simp only [decode, beq_iff_eq, if_neg hexponent, hm, hunit]
    have hinteger := natAbs_truncate hdecode
    rw [hpow] at hm hunit hexponent ⊢
    refine ⟨m, unit, by omega, by omega, ?_, by omega⟩
    rcases Int.le_total 0 unit with hpositive | hnegative
    · have hscale : (-unit).toNat = 0 := by omega
      rw [hinteger, if_pos hpositive, hscale, Nat.pow_zero, Nat.mul_one]
    · have hscale : unit.toNat = 0 := by omega
      rw [hscale, Nat.pow_zero, Nat.mul_one, hinteger]
      split
      · have hzero : unit = 0 := by omega
        simp [hzero]
      · have hmod : m % 2 ^ (-unit).toNat = 0 := by
          rw [isWhole, hdecode] at hwhole
          simpa [*] using hwhole
        exact Nat.div_mul_cancel (Nat.dvd_of_mod_eq_zero hmod)

/-- A finite double without a fraction is the one that its integer part is rounded to. -/
theorem key_ofInt_truncate (hfinite : x.isFinite) (hwhole : x.isWhole) :
    (ofInt x.truncate).key = x.key := by
  by_cases hzero : x.magnitude = 0
  · have hdecode : x.decode = (0, -1074) := by rw [decode, hzero]; rfl
    have htruncate : x.truncate = 0 := by
      rw [← Int.natAbs_eq_zero, natAbs_truncate hdecode]
      exact Nat.zero_div _
    have hkey : x.key = 0 := by simp [key, hzero]
    rw [htruncate, hkey]
    decide
  · have hinfinite : infiniteMagnitude = 9218868437227405312 := rfl
    have hpow : Nat.pow 2 63 = 9223372036854775808 := rfl
    have hbound : x.magnitude < infiniteMagnitude := by simpa [isFinite] using hfinite
    obtain ⟨m, unit, hlow, hhigh, hscaled, hmagnitude⟩ := exists_scaled_truncate hwhole hzero
    have hne : x.truncate.natAbs ≠ 0 := by
      intro heq
      rw [heq, Nat.zero_mul] at hscaled
      have hpositive := Nat.mul_pos (show 0 < m by omega) (Nat.two_pow_pos unit.toNat)
      omega
    have hround : ∀ negative, (ofRatio negative x.truncate.natAbs 1).key =
        if negative then -(x.magnitude : Int) else x.magnitude := by
      intro negative
      rw [ofRatio_one_of_scaled hne hlow hhigh hscaled, hmagnitude, Nat.min_eq_left hbound.le]
      exact key_ofMagnitude (by omega)
    have hsign := x.truncate_eq_natAbs
    have hkey : x.key = if x.isNegative then -(x.magnitude : Int) else x.magnitude := rfl
    rw [hkey, ofInt]
    cases hnegative : x.isNegative with
    | true =>
      rw [hnegative, if_pos rfl] at hsign
      have hlt : x.truncate < 0 := by omega
      rw [if_pos hlt, hround]
    | false =>
      rw [hnegative, if_neg Bool.false_ne_true] at hsign
      have hge : ¬x.truncate < 0 := by omega
      rw [if_neg hge, ofNat, if_neg hne, hround]

/-- The integer that a double is hashed as is equal to it. -/
theorem key_ofInt_of_integral? {n : Int64} (h : x.integral? = some n) :
    (ofInt n.toInt).key = x.key := by
  unfold integral? at h
  dsimp only at h
  split at h
  · next hrange =>
    obtain ⟨hfinite, hwhole, hlow, hhigh⟩ := hrange
    rw [← key_ofInt_truncate hfinite hwhole]
    by_cases htop : x.truncate = Int64.maxValue.toInt + 1
    · -- The greatest integer is rounded up to the number that it stands for.
      rw [if_pos htop] at h
      obtain rfl := Option.some.inj h
      rw [htop]
      decide
    · rw [if_neg htop] at h
      obtain rfl := Option.some.inj h
      have hgreatest : Int64.maxValue.toInt = 9223372036854775807 := by decide
      rw [Int64.toInt_ofInt_of_le hlow (by omega)]
  · cases h

end Double
end TableQuery
