import DeskCalculator.Proofs.Number.Stored

/-!
# Bounds of rounding

Rounding a mantissa cuts its excess bits, adds at most one to what is left, and cuts once more if
that has carried into a new bit. So the exponent of the rounded number is the one of the leading bit
or the next, and a mantissa that had all its bits has them again.
-/

namespace DeskCalculator

open Float.Model (Format UnpackedFloat)
open Float.Model.UnpackedFloat

/-! ## Cutting bits -/

@[simp] theorem mantissa_shiftRight (em : ExtendedMantissa) (k : Nat) :
    (em >>> k).mantissa = em.mantissa / 2 ^ k := by
  induction k with
  | zero => exact (Nat.div_one _).symm
  | succ k ih =>
    change (em >>> k).mantissa / 2 = _
    rw [ih, Nat.div_div_eq_div_mul, Nat.pow_succ]

@[simp] theorem mantissa_ofMantissaAndAccuracy (m : Nat) (a : Accuracy) :
    (ExtendedMantissa.ofMantissaAndAccuracy m a).mantissa = m := by
  cases a with
  | exact => rfl
  | inexact o => cases o <;> rfl

theorem shiftRight_ofMantissa (m k : Nat) :
    ExtendedMantissa.ofMantissaAndAccuracy m .exact >>> k
      = ⟨m / 2 ^ k, decide (2 ^ k ≤ 2 * (m % 2 ^ k)),
          decide (m % 2 ^ k ≠ 0 ∧ 2 * (m % 2 ^ k) ≠ 2 ^ k)⟩ := by
  induction k with
  | zero =>
    have hmod : m % 2 ^ 0 = 0 := Nat.mod_one m
    rw [hmod, Nat.pow_zero, Nat.div_one]
    rfl
  | succ k ih =>
    change (ExtendedMantissa.ofMantissaAndAccuracy m .exact >>> k).shiftRightOne = _
    have hpos : 0 < 2 ^ k := Nat.two_pow_pos k
    have hmod : m % 2 ^ k < 2 ^ k := Nat.mod_lt _ hpos
    have hlow : m % 2 ^ (k + 1) = m % 2 ^ k + 2 ^ k * (m / 2 ^ k % 2) := Nat.mod_mul
    have hround : (m / 2 ^ k % 2 != 0) = decide (2 ^ (k + 1) ≤ 2 * (m % 2 ^ (k + 1))) := by
      rw [hlow, Nat.pow_succ, Bool.eq_iff_iff, bne_iff_ne, decide_eq_true_iff]
      rcases Nat.mod_two_eq_zero_or_one (m / 2 ^ k) with hbit | hbit <;> rw [hbit] <;> omega
    have hsticky : (decide (2 ^ k ≤ 2 * (m % 2 ^ k))
          || decide (m % 2 ^ k ≠ 0 ∧ 2 * (m % 2 ^ k) ≠ 2 ^ k))
        = decide (m % 2 ^ (k + 1) ≠ 0 ∧ 2 * (m % 2 ^ (k + 1)) ≠ 2 ^ (k + 1)) := by
      rw [hlow, Nat.pow_succ, Bool.eq_iff_iff, Bool.or_eq_true, decide_eq_true_iff,
        decide_eq_true_iff, decide_eq_true_iff]
      rcases Nat.mod_two_eq_zero_or_one (m / 2 ^ k) with hbit | hbit <;> rw [hbit] <;> omega
    rw [ih, ExtendedMantissa.shiftRightOne, Nat.div_div_eq_div_mul, ← Nat.pow_succ]
    simp only [hround, hsticky]

/-- Cutting bits and rounding is rounding to the nearest, a half going to the even mantissa. -/
theorem roundedMantissa_shiftRight (m k : Nat) :
    (ExtendedMantissa.ofMantissaAndAccuracy m .exact >>> k).roundedMantissa
      = roundHalfEven m (2 ^ k) := by
  have hpos : 0 < 2 ^ k := Nat.two_pow_pos k
  rw [shiftRight_ofMantissa, ExtendedMantissa.roundedMantissa, roundHalfEven]
  rcases Nat.lt_trichotomy (2 * (m % 2 ^ k)) (2 ^ k) with hlow | hhalf | hhigh
  · rw [decide_eq_false (by omega), if_pos hlow]
    cases decide (m % 2 ^ k ≠ 0 ∧ 2 * (m % 2 ^ k) ≠ 2 ^ k) <;> rfl
  · rw [decide_eq_true (by omega), decide_eq_false (by omega), if_neg (by omega),
      if_neg (by omega)]
    rfl
  · rw [decide_eq_true (by omega), decide_eq_true (by omega), if_neg (by omega), if_pos hhigh]
    rfl

theorem le_roundedMantissa (em : ExtendedMantissa) :
    em.mantissa ≤ em.roundedMantissa ∧ em.roundedMantissa ≤ em.mantissa + 1 := by
  obtain ⟨m, round, sticky⟩ := em
  have hmod := Nat.mod_lt m (by decide : 0 < 2)
  cases round <;> cases sticky <;>
    simp only [ExtendedMantissa.roundedMantissa, ExtendedMantissa.accuracy,
      Accuracy.roundToNearestEven] <;> omega

/-- The bits of a mantissa that are cut for the exponent to be in range. -/
def excess (m : Nat) (e : Int) : Nat := (max (m.log2 + e - 52) (-1074) - e).toNat

theorem excess_eq (m : Nat) (e : Int) :
    (Format.binary64.targetExponent (Float.Model.totalExponent m e) - e).toNat = excess m e := by
  have hmant : (Format.binary64.mantissaBits : Int) = 53 := rfl
  have hmin : Format.binary64.minExponent = -1074 := rfl
  rw [Format.targetExponent, Float.Model.totalExponent, hmant, hmin, excess]
  congr 2
  omega

/-- Rounding cuts twice. -/
theorem exists_roundWithAccuracy_eq (s : Sign) (m : Nat) (e : Int) (a : Accuracy) :
    ∃ r, m / 2 ^ excess m e ≤ r ∧ r ≤ m / 2 ^ excess m e + 1 ∧
      roundWithAccuracy .binary64 s m e a
        = if h : r / 2 ^ excess r (e + excess m e) = 0 then .zero s
          else .finite s (r / 2 ^ excess r (e + excess m e))
            (e + excess m e + excess r (e + excess m e)) (Nat.pos_of_ne_zero h) := by
  let em := ExtendedMantissa.ofMantissaAndAccuracy m a >>> excess m e
  have hem : em.mantissa = m / 2 ^ excess m e := by simp [em]
  refine ⟨em.roundedMantissa, hem ▸ (le_roundedMantissa em).1, hem ▸ (le_roundedMantissa em).2, ?_⟩
  simp only [roundWithAccuracy, shiftToTargetExponent, shiftToExponent, excess_eq,
    mantissa_shiftRight, mantissa_ofMantissaAndAccuracy]
  rfl

/-! ## Bounds -/

/-- The leading bit of what rounding leaves is in place, or one above it. -/
theorem div_excess_lt (m : Nat) (e : Int) : m / 2 ^ excess m e < 2 ^ 53 := by
  have hlog : m < 2 ^ (m.log2 + 1) := Nat.lt_log2_self
  have hle : 2 ^ (m.log2 + 1) ≤ 2 ^ (53 + excess m e) := by
    refine Nat.pow_le_pow_right (by decide) ?_
    rw [excess]
    omega
  rw [Nat.div_lt_iff_lt_mul (Nat.two_pow_pos _), ← Nat.pow_add]
  exact Nat.lt_of_lt_of_le hlog hle

theorem atMost_roundWithAccuracy (s : Sign) (m : Nat) (e : Int) (a : Accuracy) :
    AtMost (max e (max (m.log2 + e - 52) (-1074)) + 1) (roundWithAccuracy .binary64 s m e a) := by
  obtain ⟨r, -, hr, hround⟩ := exists_roundWithAccuracy_eq s m e a
  have hr' : r ≤ 2 ^ 53 := Nat.le_trans hr (div_excess_lt m e)
  have hlog : r.log2 ≤ 53 := by
    by_cases hzero : r = 0
    · rw [hzero, Nat.log2_zero]
      exact Nat.zero_le _
    · exact Nat.lt_succ_iff.mp ((Nat.log2_lt hzero).mpr (Nat.lt_of_le_of_lt hr' (by decide)))
  have hfirst : e + excess m e = max e (max (m.log2 + e - 52) (-1074)) := by
    rw [excess]
    omega
  have hsecond : (excess r (e + excess m e) : Int) ≤ 1 := by
    rw [excess]
    omega
  rw [hround]
  split
  · exact trivial
  · exact ⟨div_excess_lt r _, by omega⟩

theorem atLeast_roundWithAccuracy (s : Sign) {m : Nat} {e : Int} (a : Accuracy)
    (hm : 52 ≤ m.log2) (he : -1074 ≤ m.log2 + e - 52) :
    AtLeast (m.log2 + e - 52) (roundWithAccuracy .binary64 s m e a) := by
  obtain ⟨r, hr, hr', hround⟩ := exists_roundWithAccuracy_eq s m e a
  have hexcess : excess m e = m.log2 - 52 := by
    rw [excess]
    omega
  have hfirst : e + excess m e = m.log2 + e - 52 := by omega
  have hlow : 2 ^ 52 ≤ m / 2 ^ excess m e := by
    rw [Nat.le_div_iff_mul_le (Nat.two_pow_pos _), ← Nat.pow_add, hexcess, Nat.add_sub_cancel' hm]
    refine Nat.log2_self_le ?_
    rintro rfl
    exact absurd hm (by decide)
  have hhigh : r ≤ 2 ^ 53 := Nat.le_trans hr' (div_excess_lt m e)
  rw [hround]
  -- a carry into the next bit is cut off again
  rcases Nat.lt_or_eq_of_le hhigh with hlt | rfl
  · have hnormal : IsNormal r := ⟨Nat.le_trans hlow hr, hlt⟩
    have hnone : excess r (e + excess m e) = 0 := by
      rw [excess, hnormal.log2_eq]
      omega
    rw [hnone, Nat.pow_zero, Nat.div_one]
    split
    · next h => exact absurd hnormal.1 (by omega)
    · exact ⟨hnormal, by omega⟩
  · have hone : excess (2 ^ 53) (e + excess m e) = 1 := by
      rw [excess, Nat.log2_two_pow]
      omega
    rw [hone]
    exact ⟨⟨by decide, by decide⟩, by omega⟩

end DeskCalculator
