import Mathlib.Algebra.Group.Nat.Defs
import DeskCalculator.Number.Binary

/-!
# Magnitudes and the nearest code

The rounding of a fraction depends only on the fraction, and a magnitude of the format rounds to its
own code. So a code is recovered from its magnitude, in whatever units that is written.
-/

namespace DeskCalculator

theorem roundHalfEven_zero {q : Nat} (hq : 0 < q) : roundHalfEven 0 q = 0 := by
  rw [roundHalfEven, Nat.zero_mod, Nat.zero_div, if_pos hq]

theorem roundHalfEven_mul (m : Nat) {q : Nat} (hq : 0 < q) : roundHalfEven (m * q) q = m := by
  rw [roundHalfEven, Nat.mul_mod_left, Nat.mul_div_cancel m hq, if_pos hq]

theorem roundHalfEven_mul_mul (p q : Nat) {k : Nat} (hk : 0 < k) :
    roundHalfEven (p * k) (q * k) = roundHalfEven p q := by
  have hleft : 2 * (p % q * k) < q * k ↔ 2 * (p % q) < q := by
    rw [← Nat.mul_assoc, Nat.mul_lt_mul_right hk]
  have hright : q * k < 2 * (p % q * k) ↔ q < 2 * (p % q) := by
    rw [← Nat.mul_assoc, Nat.mul_lt_mul_right hk]
  simp only [roundHalfEven, Nat.mul_mod_mul_right, Nat.mul_div_mul_right p q hk, hleft, hright]

namespace BinaryFormat

variable (f : BinaryFormat)

theorem nearest_mul_mul (p q : Nat) {k : Nat} (hk : 0 < k) :
    f.nearest (p * k) (q * k) = f.nearest p q := by
  have hnum : p * k * Nat.pow 2 f.grain = p * Nat.pow 2 f.grain * k := Nat.mul_right_comm _ _ _
  have hden : ∀ j, q * k * Nat.pow 2 j = q * Nat.pow 2 j * k := fun j ↦ Nat.mul_right_comm _ _ _
  simp only [nearest, hnum, hden, Nat.mul_div_mul_right _ q hk, roundHalfEven_mul_mul _ _ hk]

theorem nearest_zero {q : Nat} (hq : 0 < q) : f.nearest 0 q = 0 := by
  have hlog : f.doublings 0 = 0 := by rw [doublings, Nat.log2_zero, Nat.zero_sub]
  simp only [nearest, Nat.zero_mul, Nat.zero_div, hlog]
  rw [Nat.pow_eq, Nat.pow_zero, Nat.mul_one, roundHalfEven_zero hq, Nat.min_zero]

/-! ## Grains -/

theorem grains_of_lt {code : Nat} (h : code < 2 ^ f.fraction) : f.grains code = code := by
  simp only [grains, Nat.pow_eq, Nat.div_eq_of_lt h, if_pos]

/-- From the second block on, the place within the block counts steps. -/
theorem grains_of_le {code : Nat} (h : 2 ^ f.fraction ≤ code) :
    f.grains code
      = (code % 2 ^ f.fraction + 2 ^ f.fraction) * 2 ^ (code / 2 ^ f.fraction - 1) := by
  have hdiv : code / 2 ^ f.fraction ≠ 0 :=
    Nat.div_ne_zero_iff.mpr ⟨Nat.ne_of_gt (Nat.two_pow_pos _), h⟩
  simp only [grains, Nat.pow_eq, if_neg hdiv]

/-- The steps of a block are the doublings of its magnitudes. -/
theorem doublings_grains (code : Nat) :
    f.doublings (f.grains code) = code / 2 ^ f.fraction - 1 := by
  rcases Nat.lt_or_ge code (2 ^ f.fraction) with h | h
  · rw [grains_of_lt f h, doublings, Nat.div_eq_of_lt h, Nat.zero_sub]
    rcases Nat.eq_zero_or_pos code with rfl | hpos
    · rw [Nat.log2_zero, Nat.zero_sub]
    · have := (Nat.log2_lt (Nat.ne_of_gt hpos)).mpr h
      omega
  · have hmod : code % 2 ^ f.fraction < 2 ^ f.fraction := Nat.mod_lt _ (Nat.two_pow_pos _)
    have hlog : Nat.log2 ((code % 2 ^ f.fraction + 2 ^ f.fraction)
        * 2 ^ (code / 2 ^ f.fraction - 1)) = f.fraction + (code / 2 ^ f.fraction - 1) := by
      refine (Nat.log2_eq_iff ?_).mpr ⟨?_, ?_⟩
      · have hpos : 0 < code % 2 ^ f.fraction + 2 ^ f.fraction := by omega
        exact Nat.ne_of_gt (Nat.mul_pos hpos (Nat.two_pow_pos _))
      · rw [Nat.pow_add]
        exact Nat.mul_le_mul_right _ (Nat.le_add_left _ _)
      · rw [Nat.add_right_comm, Nat.pow_add, Nat.pow_succ]
        exact Nat.mul_lt_mul_of_pos_right (by omega) (Nat.two_pow_pos _)
    rw [grains_of_le f h, doublings, hlog, Nat.add_sub_cancel_left]

/-- **A magnitude is nearest to itself.** -/
theorem nearest_grains {code : Nat} (h : code ≤ f.infinity) :
    f.nearest (f.grains code) (2 ^ f.grain) = code := by
  have hgrain : 0 < 2 ^ f.grain := Nat.two_pow_pos _
  have hround : (code / 2 ^ f.fraction - 1) * 2 ^ f.fraction + roundHalfEven
      (f.grains code * 2 ^ f.grain) (2 ^ f.grain * 2 ^ (code / 2 ^ f.fraction - 1)) = code := by
    have hstep : 0 < 2 ^ (code / 2 ^ f.fraction - 1) := Nat.two_pow_pos _
    rcases Nat.lt_or_ge code (2 ^ f.fraction) with h | h
    -- in the first block the code is the number of grains
    · rw [grains_of_lt f h, Nat.div_eq_of_lt h, Nat.zero_sub, Nat.pow_zero, Nat.mul_one,
        roundHalfEven_mul _ hgrain, Nat.zero_mul, Nat.zero_add]
    · have hdiv : 1 ≤ code / 2 ^ f.fraction := (Nat.one_le_div_iff (Nat.two_pow_pos _)).mpr h
      have hcode := Nat.div_add_mod' code (2 ^ f.fraction)
      have hblock : (code / 2 ^ f.fraction - 1) * 2 ^ f.fraction + 2 ^ f.fraction
          = code / 2 ^ f.fraction * 2 ^ f.fraction := by
        rw [← Nat.succ_mul, Nat.succ_eq_add_one, Nat.sub_add_cancel hdiv]
      rw [grains_of_le f h, Nat.mul_assoc, Nat.mul_comm (2 ^ (code / 2 ^ f.fraction - 1)),
        roundHalfEven_mul _ (Nat.mul_pos hgrain hstep)]
      omega
  simp only [nearest, Nat.pow_eq, Nat.mul_div_cancel _ hgrain, doublings_grains, hround]
  exact Nat.min_eq_right h

end BinaryFormat

end DeskCalculator
