import DeskCalculator.Proofs.Number.Rounding

/-!
# Bounds of arithmetic

How the bounds of magnitudes go through a product, a quotient and a square root. The bounds are
coarse, by a few powers of two; they only have to keep results away from the ends of the range.
-/

namespace DeskCalculator

open Float.Model (Format UnpackedFloat)
open Float.Model.UnpackedFloat

variable {u v : UnpackedFloat} {t t' : Int}

theorem IsNormal.pos {m : Nat} (h : IsNormal m) : 0 < m := Nat.lt_of_lt_of_le (by decide) h.1

theorem le_log2_of_le {m k : Nat} (h : 2 ^ k ≤ m) : k ≤ m.log2 :=
  (Nat.le_log2 (Nat.ne_of_gt (Nat.lt_of_lt_of_le (Nat.two_pow_pos k) h))).mpr h

theorem log2_le_of_lt {m k : Nat} (h : m < 2 ^ (k + 1)) : m.log2 ≤ k := by
  by_cases hm : m = 0
  · rw [hm, Nat.log2_zero]
    exact Nat.zero_le k
  · exact Nat.lt_succ_iff.mp ((Nat.log2_lt hm).mpr h)

/-! ## Products -/

theorem AtLeast.mul (h : AtLeast t u) (h' : AtLeast t' v) (ht : -1126 ≤ t + t') :
    AtLeast (t + t' + 52) (mul .binary64 u v) := by
  cases u with
  | zero s => exact h.elim
  | notANumber => exact h.elim
  | infinity s =>
    cases v with
    | zero s' => exact h'.elim
    | notANumber => exact h'.elim
    | _ => exact trivial
  | finite s m e hm =>
    cases v with
    | zero s' => exact h'.elim
    | notANumber => exact h'.elim
    | infinity s' => exact trivial
    | finite s' m' e' hm' =>
      have hprod : 2 ^ 52 * 2 ^ 52 ≤ m * m' := Nat.mul_le_mul h.1.1 h'.1.1
      have hlog : 104 ≤ (m * m').log2 := le_log2_of_le hprod
      have he := h.2
      have he' := h'.2
      exact (atLeast_roundWithAccuracy _ _ (by omega) (by omega)).mono (by omega)

/-! ## Quotients -/

/-- The exponent that a quotient is computed with. -/
def quotientExponent (m : Nat) (e : Int) (m' : Nat) (e' : Int) : Int :=
  min (e - e') (max (m.log2 - m'.log2 + (e - e') - 53) (-1074))

/-- The bits that a dividend is shifted by. -/
def quotientShift (m : Nat) (e : Int) (m' : Nat) (e' : Int) : Nat :=
  (e - e' - quotientExponent m e m' e').toNat

theorem div_finite (s s' : Sign) {m m' : Nat} {e e' : Int} (hm : 0 < m) (hm' : 0 < m') :
    ∃ a, div .binary64 (.finite s m e hm) (.finite s' m' e' hm')
      = roundWithAccuracy .binary64 (s / s') (m <<< quotientShift m e m' e' / m')
        (quotientExponent m e m' e') a := by
  have htarget : Format.binary64.targetExponent
      (Float.Model.totalExponent m e - Float.Model.totalExponent m' e')
        = max (m.log2 - m'.log2 + (e - e') - 53) (-1074) := by
    have hmant : (Format.binary64.mantissaBits : Int) = 53 := rfl
    have hmin : Format.binary64.minExponent = -1074 := rfl
    rw [Format.targetExponent, Float.Model.totalExponent, Float.Model.totalExponent, hmant, hmin]
    congr 1
    omega
  have hexponent : min (e - e') (Format.binary64.targetExponent
      (Float.Model.totalExponent m e - Float.Model.totalExponent m' e'))
        = quotientExponent m e m' e' := by rw [htarget, quotientExponent]
  simp only [div, divCore, hexponent, quotientShift]
  exact ⟨_, rfl⟩

/-- A quotient by a normal number of a moderate size is large if the dividend is. -/
theorem AtLeast.div (h : AtLeast t u) (s' : Sign) {m' : Nat} {e' : Int} (hm' : 0 < m')
    (hnormal : IsNormal m') (ht : -1021 ≤ t - e') :
    AtLeast (t - e' - 53) (div .binary64 u (.finite s' m' e' hm')) := by
  cases u with
  | zero s => exact h.elim
  | notANumber => exact h.elim
  | infinity s => exact trivial
  | finite s m e hm =>
    have he := h.2
    have hexponent : quotientExponent m e m' e' = e - e' - 53 := by
      rw [quotientExponent, h.1.log2_eq, hnormal.log2_eq]
      omega
    have hshift : quotientShift m e m' e' = 53 := by
      rw [quotientShift, hexponent]
      omega
    -- both mantissas have all their bits, so the quotient has at least as many
    have hquotient : 52 ≤ (m <<< 53 / m').log2 := by
      refine le_log2_of_le ?_
      rw [Nat.le_div_iff_mul_le hm', Nat.shiftLeft_eq]
      have hdividend : 2 ^ 52 * 2 ^ 53 ≤ m * 2 ^ 53 := Nat.mul_le_mul_right _ h.1.1
      exact Nat.le_trans (Nat.mul_le_mul_left _ (Nat.le_of_lt hnormal.2)) hdividend
    obtain ⟨a, hdiv⟩ := div_finite s s' hm hm'
    rw [hdiv, hshift, hexponent]
    exact (atLeast_roundWithAccuracy _ a hquotient (by omega)).mono (by omega)

theorem AtMost.div (h : AtMost t u) (h' : AtLeast t' v) :
    AtMost (max (t - t') (-1074) + 1) (div .binary64 u v) := by
  cases u with
  | infinity s => exact h.elim
  | notANumber => exact h.elim
  | zero s =>
    cases v with
    | zero s' => exact h'.elim
    | notANumber => exact h'.elim
    | _ => exact trivial
  | finite s m e hm =>
    cases v with
    | zero s' => exact h'.elim
    | notANumber => exact h'.elim
    | infinity s' => exact trivial
    | finite s' m' e' hm' =>
      have he := h.2
      have he' := h'.2
      have hexponent : quotientExponent m e m' e' ≤ e - e' := Int.min_le_left _ _
      have hshift : (quotientShift m e m' e' : Int) = e - e' - quotientExponent m e m' e' :=
        Int.toNat_of_nonneg (by omega)
      have hquotient : (m <<< quotientShift m e m' e' / m').log2 ≤ quotientShift m e m' e' := by
        refine log2_le_of_lt ?_
        rw [Nat.div_lt_iff_lt_mul hm', Nat.shiftLeft_eq]
        calc m * 2 ^ quotientShift m e m' e'
            < 2 ^ 53 * 2 ^ quotientShift m e m' e' :=
              Nat.mul_lt_mul_of_pos_right h.1 (Nat.two_pow_pos _)
          _ = 2 ^ (quotientShift m e m' e' + 1) * 2 ^ 52 := by
              rw [← Nat.pow_add, ← Nat.pow_add]
              congr 1
              omega
          _ ≤ 2 ^ (quotientShift m e m' e' + 1) * m' := Nat.mul_le_mul_left _ h'.1.1
      obtain ⟨a, hdiv⟩ := div_finite s s' hm hm'
      rw [hdiv]
      exact (atMost_roundWithAccuracy _ _ _ a).mono (by omega)

/-! ## Square roots -/

/-- The exponent that a square root is computed with. -/
def rootExponent (m : Nat) (e : Int) : Int :=
  min (e / 2) (max ((m.log2 + 2 + e) / 2 - 53) (-1074))

theorem sqrt_finite {m : Nat} {e : Int} (hm : 0 < m) :
    ∃ a, sqrt .binary64 (.finite .positive m e hm)
      = roundWithAccuracy .binary64 .positive
        (Nat.sqrt (m <<< (e - 2 * rootExponent m e).toNat)) (rootExponent m e) a := by
  have htarget : Format.binary64.targetExponent ((Float.Model.totalExponent m e + 1).ediv 2)
      = max ((m.log2 + 2 + e) / 2 - 53) (-1074) := by
    have hmant : (Format.binary64.mantissaBits : Int) = 53 := rfl
    have hmin : Format.binary64.minExponent = -1074 := rfl
    have hlog : (m.log2 : Int) + 1 + e + 1 = m.log2 + 2 + e := by omega
    rw [Format.targetExponent, Float.Model.totalExponent, hmant, hmin, hlog]
    rfl
  have hexponent : min (e.ediv 2)
      (Format.binary64.targetExponent ((Float.Model.totalExponent m e + 1).ediv 2))
        = rootExponent m e := by
    rw [htarget, rootExponent]
    rfl
  simp only [sqrt, sqrtCore, hexponent]
  exact ⟨_, rfl⟩

theorem AtMost.sqrt {m : Nat} {e : Int} {hm : 0 < m} (h : AtMost t (.finite .positive m e hm)) :
    AtMost (max (t / 2) (-1074) + 1) (sqrt .binary64 (.finite .positive m e hm)) := by
  have he := h.2
  have hexponent : rootExponent m e ≤ e / 2 := Int.min_le_left _ _
  have hshift : ((e - 2 * rootExponent m e).toNat : Int) = e - 2 * rootExponent m e :=
    Int.toNat_of_nonneg (by omega)
  generalize hk : (e - 2 * rootExponent m e).toNat = k at hshift
  have hroot : (Nat.sqrt (m <<< k)).log2 ≤ (53 + k) / 2 := by
    refine log2_le_of_lt (Nat.sqrt_lt.mpr ?_)
    rw [Nat.shiftLeft_eq, ← Nat.pow_add]
    calc m * 2 ^ k
        < 2 ^ 53 * 2 ^ k := Nat.mul_lt_mul_of_pos_right h.1 (Nat.two_pow_pos _)
      _ = 2 ^ (53 + k) := (Nat.pow_add 2 53 k).symm
      _ ≤ 2 ^ ((53 + k) / 2 + 1 + ((53 + k) / 2 + 1)) :=
          Nat.pow_le_pow_right (by decide) (by omega)
  obtain ⟨a, hsqrt⟩ := sqrt_finite hm
  rw [hsqrt, hk]
  exact (atMost_roundWithAccuracy _ _ _ a).mono (by omega)

end DeskCalculator
