import DeskCalculator.Proofs.Number.Places

/-!
# Rounding a number of grains

What a number of grains is rounded to depends on its leading bit alone: it decides the step there,
and the number becomes a whole number of steps, a half going to the even one. Rounding moves a
number by half a step at most and keeps the order, also from one step to the next, because a number
is never rounded beyond the power of two behind it.

There is no largest magnitude here. What is computed in a format is rounded like this as long as it
does not overflow.
-/

namespace DeskCalculator

namespace BinaryFormat

variable (f : BinaryFormat) {n n' k : Nat}

/-- `n` grains are a whole number of the steps there. -/
def IsMagnitude (n : Nat) : Prop := 2 ^ f.doublings n ∣ n

/-- What `n` grains are rounded to. -/
def roundGrains (n : Nat) : Nat := roundHalfEven n (2 ^ f.doublings n) * 2 ^ f.doublings n

/-! ## Steps -/

theorem lt_pow_doublings (n : Nat) : n < 2 ^ (f.fraction + f.doublings n + 1) :=
  (f.doublings_eq_iff.mp rfl).2

theorem pow_doublings_le (h : f.doublings n ≠ 0) : 2 ^ (f.fraction + f.doublings n) ≤ n :=
  (f.doublings_eq_iff.mp rfl).1.resolve_left h

theorem doublings_le (h : n < 2 ^ (f.fraction + k + 1)) : f.doublings n ≤ k := by
  refine Nat.not_lt.mp fun hlt ↦ ?_
  have hle := Nat.lt_of_le_of_lt (f.pow_doublings_le (n := n) (by omega)) h
  have := (Nat.pow_lt_pow_iff_right (by decide : 1 < 2)).mp hle
  omega

theorem le_doublings (h : 2 ^ (f.fraction + k) ≤ n) : k ≤ f.doublings n := by
  refine Nat.not_lt.mp fun hlt ↦ ?_
  have hle := Nat.lt_of_le_of_lt h (f.lt_pow_doublings n)
  have := (Nat.pow_lt_pow_iff_right (by decide : 1 < 2)).mp hle
  omega

theorem doublings_mono (h : n ≤ n') : f.doublings n ≤ f.doublings n' :=
  f.doublings_le (Nat.lt_of_le_of_lt h (f.lt_pow_doublings n'))

/-! ## Rounding -/

theorem roundGrains_error (n : Nat) :
    2 * n ≤ 2 * f.roundGrains n + 2 ^ f.doublings n ∧
      2 * f.roundGrains n ≤ 2 * n + 2 ^ f.doublings n :=
  roundHalfEven_error (Nat.two_pow_pos _)

theorem IsMagnitude.roundGrains_eq (h : f.IsMagnitude n) : f.roundGrains n = n := by
  obtain ⟨m, hm⟩ := h
  have hround := roundHalfEven_mul m (Nat.two_pow_pos (f.doublings n))
  rw [Nat.mul_comm, ← hm] at hround
  rw [roundGrains, hround, Nat.mul_comm, ← hm]

theorem isMagnitude_zero : f.IsMagnitude 0 := Nat.dvd_zero _

@[simp] theorem roundGrains_zero : f.roundGrains 0 = 0 := f.isMagnitude_zero.roundGrains_eq

theorem roundGrains_le (n : Nat) : f.roundGrains n ≤ 2 ^ (f.fraction + f.doublings n + 1) := by
  have hlt := f.lt_pow_doublings n
  rw [Nat.add_right_comm, Nat.pow_add] at hlt ⊢
  exact Nat.mul_le_mul_right _ (roundHalfEven_le (Nat.two_pow_pos _) (Nat.le_of_lt hlt))

theorem le_roundGrains (h : f.doublings n ≠ 0) :
    2 ^ (f.fraction + f.doublings n) ≤ f.roundGrains n := by
  have hle := f.pow_doublings_le h
  rw [Nat.pow_add] at hle ⊢
  exact Nat.mul_le_mul_right _ (le_roundHalfEven (Nat.two_pow_pos _) hle)

/-- **Rounding keeps the order.** -/
theorem roundGrains_mono (h : n ≤ n') : f.roundGrains n ≤ f.roundGrains n' := by
  rcases Nat.lt_or_eq_of_le (f.doublings_mono h) with hlt | heq
  · calc f.roundGrains n
        ≤ 2 ^ (f.fraction + f.doublings n + 1) := f.roundGrains_le n
      _ ≤ 2 ^ (f.fraction + f.doublings n') := Nat.pow_le_pow_right (by decide) (by omega)
      _ ≤ f.roundGrains n' := f.le_roundGrains (by omega)
  · rw [roundGrains, roundGrains, heq]
    exact Nat.mul_le_mul_right _ (roundHalfEven_mono _ h)

/-- What rounding leaves is a whole number of steps, also if it is the power of two from which on
the step is larger. -/
theorem isMagnitude_roundGrains (n : Nat) : f.IsMagnitude (f.roundGrains n) := by
  rcases Nat.lt_or_eq_of_le (f.roundGrains_le n) with hlt | heq
  · exact Nat.dvd_trans (Nat.pow_dvd_pow 2 (f.doublings_le hlt)) (Nat.dvd_mul_left _ _)
  · rw [IsMagnitude, heq]
    refine Nat.pow_dvd_pow 2 (Nat.le_trans (f.doublings_le (k := f.doublings n + 1) ?_) (by omega))
    exact Nat.pow_lt_pow_right (by decide) (by omega)

/-! ## The largest step -/

theorem IsMagnitude.add_pow_le (h : f.IsMagnitude n) (hk : f.doublings n ≤ k) :
    n + 2 ^ k ≤ 2 ^ (f.fraction + k + 1) := by
  have hlt := f.lt_pow_doublings n
  rcases Nat.lt_or_eq_of_le hk with hless | heq
  · have hbound : 2 ^ (f.fraction + f.doublings n + 1) ≤ 2 ^ (f.fraction + k) :=
      Nat.pow_le_pow_right (by decide) (by omega)
    have hstep : 2 ^ k ≤ 2 ^ (f.fraction + k) := Nat.pow_le_pow_right (by decide) (by omega)
    rw [Nat.pow_succ]
    omega
  · obtain ⟨m, hm⟩ := h
    rw [heq] at hm hlt
    have hpow : 2 ^ (f.fraction + k + 1) = 2 ^ k * 2 ^ (f.fraction + 1) := by
      rw [← Nat.pow_add]
      congr 1
      omega
    rw [hpow, hm] at hlt
    rw [hpow, hm, ← Nat.mul_succ]
    exact Nat.mul_le_mul_left _ (Nat.lt_of_mul_lt_mul_left hlt)

/-- A number less than half a step above a magnitude is rounded without a larger step. -/
theorem IsMagnitude.doublings_roundGrains_le (h : f.IsMagnitude n) (hk : f.doublings n ≤ k)
    (hn : 2 * n' < 2 * n + 2 ^ k) : f.doublings (f.roundGrains n') ≤ k := by
  have hroom := h.add_pow_le f hk
  have hpos : 0 < 2 ^ k := Nat.two_pow_pos k
  have hlt : n' < 2 ^ (f.fraction + k + 1) := by omega
  have hstep : 2 ^ f.doublings n' ≤ 2 ^ k := Nat.pow_le_pow_right (by decide) (f.doublings_le hlt)
  have herror := (f.roundGrains_error n').2
  have hrounded : f.roundGrains n' < 2 ^ (f.fraction + k + 1) := by omega
  exact f.doublings_le hrounded

end BinaryFormat

end DeskCalculator
