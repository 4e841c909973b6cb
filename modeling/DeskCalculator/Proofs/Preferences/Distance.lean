import DeskCalculator.Proofs.Number.Grains

/-!
# Distances from far away

From above all sizes, the distances to the two largest differ by 0.15. Once a step is no less than
half, rounding may lose this difference. It does so for whole numbers: the two exact distances lie
between two neighbouring whole numbers, where no number on a step or halfway between two steps comes
between them, except that with a step of one half the distance to 1.25 is itself a half between two
steps, and the even one of them is the one that the distance to 1.1 is rounded to. A fraction is
left alone, because there the even step is the other one.

Numbers are counted in grains: 1.25 is `5 * 2 ^ 147`, and 1.1 in single precision is
`9227469 * 2 ^ 126`.
-/

namespace DeskCalculator

namespace BinaryFormat

variable {g x y n k : Nat}

theorem doublings_single_le (h : n < 2 ^ (24 + k)) : single.doublings n ≤ k :=
  single.doublings_le (h.trans_eq (congrArg (2 ^ ·) (Nat.add_right_comm 23 1 k)))

theorem le_doublings_single (h : 2 ^ (23 + k) ≤ n) : k ≤ single.doublings n := single.le_doublings h

theorem pow_doublings_single_le (h : n < 2 ^ (24 + k)) : 2 ^ single.doublings n ≤ 2 ^ k :=
  Nat.pow_le_pow_right (by decide) (doublings_single_le h)

theorem IsMagnitude.pow_dvd (hg : single.IsMagnitude g) (h : 2 ^ (23 + k) ≤ g) : 2 ^ k ∣ g :=
  Nat.dvd_trans (Nat.pow_dvd_pow 2 (le_doublings_single h)) hg

/-! ## Told apart -/

theorem roundGrains_lt_of_fine (hx : x + 5 * 2 ^ 147 = g) (hy : y + 9227469 * 2 ^ 126 = g)
    (hfine : y < 2 ^ 170) : single.roundGrains x < single.roundGrains y := by
  have herror := (single.roundGrains_error x).2
  have herror' := (single.roundGrains_error y).1
  have hstep : 2 ^ single.doublings x ≤ 2 ^ 146 := pow_doublings_single_le (by omega)
  have hstep' : 2 ^ single.doublings y ≤ 2 ^ 146 := pow_doublings_single_le hfine
  omega

theorem roundGrains_lt_of_exact (hg : single.IsMagnitude g) (hx : x + 5 * 2 ^ 147 = g)
    (hy : y + 9227469 * 2 ^ 126 = g) (hcoarse : 2 ^ 170 ≤ y) (hexact : x < 2 ^ 171) :
    single.roundGrains x < single.roundGrains y := by
  have hmagnitude : single.IsMagnitude x := by
    obtain ⟨j, hj⟩ := hg.pow_dvd (k := 147) (by omega)
    refine Nat.dvd_trans (Nat.pow_dvd_pow 2 (doublings_single_le (k := 147) hexact)) ⟨j - 5, ?_⟩
    omega
  rw [hmagnitude.roundGrains_eq]
  rcases Nat.lt_or_ge y (2 ^ 171) with hlow | hhigh
  · have herror := (single.roundGrains_error y).1
    have hstep : 2 ^ single.doublings y ≤ 2 ^ 147 := pow_doublings_single_le hlow
    omega
  · have hd : 148 ≤ single.doublings y := le_doublings_single hhigh
    have hle : 2 ^ (23 + 148) ≤ single.roundGrains y :=
      Nat.le_trans (Nat.pow_le_pow_right (by decide) (Nat.add_le_add_left hd 23))
        (single.le_roundGrains (by omega))
    omega

/-- Where a step is one half and the number is a half more than a whole one, the even step for the
smaller distance is the one below. -/
theorem roundGrains_lt_of_half (hx : x + 5 * 2 ^ 147 = g) (hy : y + 9227469 * 2 ^ 126 = g)
    (hlow : 2 ^ 171 ≤ x) (hhigh : g < 2 ^ 172) {j : Nat} (hj : g = 2 ^ 148 * j)
    (hodd : j % 2 = 1) : single.roundGrains x < single.roundGrains y := by
  have hd : single.doublings x = 148 :=
    Nat.le_antisymm (doublings_single_le (by omega)) (le_doublings_single hlow)
  have hdown : roundHalfEven x (2 ^ 148) ≤ j - 3 :=
    roundHalfEven_le_of_even (Nat.two_pow_pos _) (by omega) (by omega)
  have hle : single.roundGrains x ≤ (j - 3) * 2 ^ 148 := by
    rw [roundGrains, hd]
    exact Nat.mul_le_mul_right _ hdown
  have herror := (single.roundGrains_error y).1
  have hstep : 2 ^ single.doublings y ≤ 2 ^ 148 := pow_doublings_single_le (by omega)
  omega

/-- The larger distance stays larger below `2 ^ 22 + 2`, and for fractions above. -/
theorem roundGrains_lt_of_not_remote (hg : single.IsMagnitude g) (hx : x + 5 * 2 ^ 147 = g)
    (hy : y + 9227469 * 2 ^ 126 = g) (hnear : ¬ (4194306 * 2 ^ 149 ≤ g ∧ 2 ^ 149 ∣ g)) :
    single.roundGrains x < single.roundGrains y := by
  rcases Nat.lt_or_ge y (2 ^ 170) with hfine | hcoarse
  · exact roundGrains_lt_of_fine hx hy hfine
  rcases Nat.lt_or_ge x (2 ^ 171) with hexact | hrounded
  · exact roundGrains_lt_of_exact hg hx hy hcoarse hexact
  obtain ⟨j, hj⟩ := hg.pow_dvd (k := 148) (by omega)
  have hhigh : g < 2 ^ 172 := Nat.not_le.mp fun h ↦ hnear ⟨by omega, hg.pow_dvd h⟩
  have hodd : j % 2 = 1 := by
    refine (Nat.mod_two_eq_zero_or_one j).resolve_left fun heven ↦ hnear ⟨by omega, j / 2, ?_⟩
    omega
  exact roundGrains_lt_of_half hx hy hrounded hhigh hj hodd

/-! ## Not told apart -/

/-- For whole numbers from `2 ^ 22 + 2` on the difference is lost. -/
theorem roundGrains_le_of_remote (hx : x + 5 * 2 ^ 147 = g) (hy : y + 9227469 * 2 ^ 126 = g)
    (hfar : 4194306 * 2 ^ 149 ≤ g) (hwhole : 2 ^ 149 ∣ g) :
    single.roundGrains y ≤ single.roundGrains x := by
  obtain ⟨n, hn⟩ := hwhole
  have hd : 148 ≤ single.doublings x := le_doublings_single (by omega)
  have hlast : x < 2 ^ (23 + single.doublings x + 1) := single.lt_pow_doublings x
  have hmono : single.doublings x ≤ single.doublings y := single.doublings_mono (by omega)
  generalize hk : single.doublings x = k at hd hlast hmono
  -- no power of two comes between the two distances
  have hsame : single.doublings y = k := by
    refine Nat.le_antisymm (single.doublings_le (Nat.not_le.mp fun h ↦ ?_)) hmono
    have hpow : 2 ^ (23 + k + 1) = 2 ^ 149 * 2 ^ (23 + k + 1 - 149) := by
      rw [← Nat.pow_add, Nat.add_sub_cancel' (by omega)]
    change 2 ^ (23 + k + 1) ≤ y at h
    rw [hpow] at h hlast
    omega
  rw [roundGrains, roundGrains, hsame, hk]
  refine Nat.mul_le_mul_right _ ?_
  rcases Nat.eq_or_lt_of_le hd with rfl | hlarge
  · calc roundHalfEven y (2 ^ 148)
        ≤ 2 * n - 2 := roundHalfEven_le_of_even (Nat.two_pow_pos _) (by omega) (by omega)
      _ ≤ roundHalfEven x (2 ^ 148) :=
          le_roundHalfEven_of_even (Nat.two_pow_pos _) (by omega) (by omega)
  · have hpow : 2 ^ k = 2 ^ 149 * 2 ^ (k - 149) := by
      rw [← Nat.pow_add, Nat.add_sub_cancel' hlarge]
    have herror := (roundHalfEven_error (p := y) (Nat.two_pow_pos k)).2
    refine le_roundHalfEven_of_lt (Nat.two_pow_pos k) ?_
    generalize roundHalfEven y (2 ^ k) = m at herror ⊢
    have hmul : m * 2 ^ k = 2 ^ 149 * (m * 2 ^ (k - 149)) := by rw [hpow, Nat.mul_left_comm]
    rw [hmul, hpow] at herror ⊢
    omega

end BinaryFormat

end DeskCalculator
