import DeskCalculator.Proofs.Number.Nearest

/-!
# How near the nearest code is

Around a fraction the magnitudes stand at steps of a power of two grains. Rounding moves the
fraction by half a step at most, and what is moved away from a magnitude by less than half a step is
rounded back to it, unless the magnitude begins a block: there the step below is half the step
above.
-/

namespace DeskCalculator

section Rounding

variable {p q m : Nat}

theorem roundHalfEven_error (hq : 0 < q) :
    2 * p ≤ 2 * (roundHalfEven p q * q) + q ∧ 2 * (roundHalfEven p q * q) ≤ 2 * p + q := by
  have hsplit : p / q * q + p % q = p := Nat.div_add_mod' p q
  have hup : (p / q + 1) * q = p / q * q + q := Nat.succ_mul _ _
  have hmod : p % q < q := Nat.mod_lt p hq
  rw [roundHalfEven]
  split
  · omega
  · split
    · omega
    -- halfway, the quotient or the number above it is even
    · rcases Nat.mod_two_eq_zero_or_one (p / q) with heven | hodd
      · rw [heven, Nat.add_zero]
        omega
      · rw [hodd]
        omega

theorem le_roundHalfEven (hq : 0 < q) (h : m * q ≤ p) : m ≤ roundHalfEven p q := by
  refine Nat.not_lt.mp fun hlt ↦ ?_
  have hstep : (roundHalfEven p q + 1) * q ≤ m * q := Nat.mul_le_mul_right q (by omega)
  have herror := (roundHalfEven_error (p := p) hq).1
  rw [Nat.succ_mul] at hstep
  omega

theorem roundHalfEven_le (hq : 0 < q) (h : p ≤ m * q) : roundHalfEven p q ≤ m := by
  refine Nat.not_lt.mp fun hlt ↦ ?_
  have hstep : (m + 1) * q ≤ roundHalfEven p q * q := Nat.mul_le_mul_right q (by omega)
  have herror := (roundHalfEven_error (p := p) hq).2
  rw [Nat.succ_mul] at hstep
  omega

theorem le_roundHalfEven_of_even (hq : 0 < q) (heven : m % 2 = 0)
    (h : 2 * (m * q) ≤ 2 * p + q) : m ≤ roundHalfEven p q := by
  rcases Nat.lt_or_ge p (m * q) with hlt | hge
  · have hsplit : p / q * q + p % q = p := Nat.div_add_mod' p q
    have hmod : p % q < q := Nat.mod_lt p hq
    have hnext : m = p / q + 1 := by
      refine Nat.le_antisymm (Nat.not_lt.mp fun hfar ↦ ?_) ((Nat.div_lt_iff_lt_mul hq).mpr hlt)
      have hfar' : (p / q + 1 + 1) * q ≤ m * q := Nat.mul_le_mul_right q hfar
      rw [Nat.succ_mul, Nat.succ_mul] at hfar'
      omega
    rw [hnext, Nat.add_mul, Nat.one_mul] at h
    rw [roundHalfEven, if_neg (by omega)]
    split <;> omega
  · exact le_roundHalfEven hq hge

theorem le_roundHalfEven_iff_of_even (hq : 0 < q) (heven : m % 2 = 0) :
    m ≤ roundHalfEven p q ↔ 2 * (m * q) ≤ 2 * p + q := by
  refine ⟨fun h ↦ ?_, le_roundHalfEven_of_even hq heven⟩
  exact Nat.le_trans (Nat.mul_le_mul_left 2 (Nat.mul_le_mul_right q h)) (roundHalfEven_error hq).2

theorem roundHalfEven_le_of_even (hq : 0 < q) (heven : m % 2 = 0)
    (h : 2 * p ≤ 2 * (m * q) + q) : roundHalfEven p q ≤ m := by
  rcases Nat.lt_or_ge p (m * q) with hlt | hge
  · exact roundHalfEven_le hq (Nat.le_of_lt hlt)
  · have hdiv : p / q = m := by
      refine Nat.div_eq_of_lt_le hge ?_
      rw [Nat.add_mul, Nat.one_mul]
      omega
    have hsplit : p / q * q + p % q = p := Nat.div_add_mod' p q
    rw [hdiv] at hsplit
    rw [roundHalfEven, hdiv]
    split
    · exact Nat.le_refl m
    · rw [if_neg (by omega), heven]
      exact Nat.le_refl m

theorem le_roundHalfEven_of_lt (hq : 0 < q) (h : 2 * (m * q) < 2 * p + q) :
    m ≤ roundHalfEven p q := by
  refine Nat.not_lt.mp fun hlt ↦ ?_
  have hnext : (roundHalfEven p q + 1) * q ≤ m * q := Nat.mul_le_mul_right q hlt
  have herror := (roundHalfEven_error (p := p) hq).1
  rw [Nat.add_mul, Nat.one_mul] at hnext
  omega

theorem roundHalfEven_eq (hlow : 2 * (m * q) < 2 * p + q) (hhigh : 2 * p < 2 * (m * q) + q) :
    roundHalfEven p q = m := by
  have hq : 0 < q := by omega
  obtain ⟨herror, herror'⟩ := roundHalfEven_error (p := p) hq
  refine Nat.le_antisymm (Nat.le_of_lt_succ ?_) (Nat.le_of_lt_succ ?_)
  · refine Nat.lt_of_mul_lt_mul_right (a := q) ?_
    rw [Nat.succ_eq_add_one, Nat.succ_mul]
    omega
  · refine Nat.lt_of_mul_lt_mul_right (a := q) ?_
    rw [Nat.succ_eq_add_one, Nat.succ_mul]
    omega

end Rounding

namespace BinaryFormat

variable (f : BinaryFormat)

/-! ## Steps -/

theorem mul_two_pow_mul (m k q : Nat) : m * 2 ^ k * q = m * (q * 2 ^ k) := by
  rw [Nat.mul_assoc, Nat.mul_comm (2 ^ k)]

/-- The magnitude at a place of a block, in steps. A block has room for one more, which begins the
next. -/
theorem grains_steps {k r : Nat} (hlow : k = 0 ∨ 2 ^ f.fraction ≤ r)
    (hhigh : r ≤ 2 * 2 ^ f.fraction) : f.grains (k * 2 ^ f.fraction + r) = r * 2 ^ k := by
  have hblock : 0 < 2 ^ f.fraction := Nat.two_pow_pos _
  rcases Nat.lt_or_ge r (2 ^ f.fraction) with hfirst | hfull
  · have hzero : k = 0 := hlow.resolve_right (Nat.not_le.mpr hfirst)
    rw [hzero, Nat.zero_mul, Nat.zero_add, f.grains_of_lt hfirst, Nat.pow_zero, Nat.mul_one]
  · obtain ⟨d, rfl⟩ := Nat.exists_eq_add_of_le hfull
    have hcode : k * 2 ^ f.fraction + (2 ^ f.fraction + d) = d + (k + 1) * 2 ^ f.fraction := by
      rw [Nat.succ_mul]
      omega
    rw [hcode, f.grains_of_le (Nat.le_trans (Nat.le_mul_of_pos_left _ (Nat.succ_pos k))
      (Nat.le_add_left _ d)), Nat.add_mul_mod_self_right, Nat.add_mul_div_right _ _ hblock]
    rcases Nat.lt_or_eq_of_le (show d ≤ 2 ^ f.fraction by omega) with hd | rfl
    · rw [Nat.mod_eq_of_lt hd, Nat.div_eq_of_lt hd, Nat.zero_add, Nat.succ_sub_one, Nat.add_comm d]
    -- twice as many steps of half the size
    · rw [Nat.mod_self, Nat.div_self hblock, Nat.zero_add, Nat.add_comm 1, Nat.add_sub_cancel,
        Nat.pow_succ', ← Nat.two_mul, Nat.mul_left_comm, Nat.mul_assoc]

theorem doublings_eq_iff {n k : Nat} : f.doublings n = k ↔
    (k = 0 ∨ 2 ^ (f.fraction + k) ≤ n) ∧ n < 2 ^ (f.fraction + k + 1) := by
  rcases Nat.eq_zero_or_pos n with rfl | hn
  · have hpos : ∀ j, 0 < 2 ^ j := Nat.two_pow_pos
    simp [doublings, hpos, eq_comm]
  · have hlow : ∀ j, j ≤ n.log2 ↔ 2 ^ j ≤ n := fun j ↦ Nat.le_log2 (Nat.ne_of_gt hn)
    have hhigh : ∀ j, n.log2 < j ↔ n < 2 ^ j := fun j ↦ Nat.log2_lt (Nat.ne_of_gt hn)
    rw [← hlow, ← hhigh, doublings]
    omega

/-- A fraction is rounded to a place in the block of its step. -/
theorem exists_nearest_eq (p : Nat) {q : Nat} (hq : 0 < q) :
    ∃ k r, f.doublings (p * 2 ^ f.grain / q) = k ∧
      f.nearest p q = min f.infinity (k * 2 ^ f.fraction + r) ∧
      r = roundHalfEven (p * 2 ^ f.grain) (q * 2 ^ k) ∧
      (k = 0 ∨ 2 ^ (f.fraction + k) * q ≤ p * 2 ^ f.grain ∧ 2 ^ f.fraction ≤ r) ∧
      r ≤ 2 * 2 ^ f.fraction := by
  obtain ⟨hlow, hhigh⟩ := f.doublings_eq_iff.mp (Eq.refl (f.doublings (p * 2 ^ f.grain / q)))
  generalize hk : f.doublings (p * 2 ^ f.grain / q) = k at hlow hhigh
  have hstep : 0 < q * 2 ^ k := Nat.mul_pos hq (Nat.two_pow_pos k)
  refine ⟨k, _, rfl, by rw [nearest]; simp only [Nat.pow_eq, hk], rfl, ?_, ?_⟩
  · refine hlow.imp_right fun h ↦ ?_
    rw [Nat.le_div_iff_mul_le hq] at h
    refine ⟨h, le_roundHalfEven hstep ?_⟩
    rwa [← mul_two_pow_mul, ← Nat.pow_add]
  · refine roundHalfEven_le hstep ?_
    rw [Nat.div_lt_iff_lt_mul hq, Nat.add_right_comm, Nat.pow_add, mul_two_pow_mul] at hhigh
    rw [← Nat.pow_succ']
    exact Nat.le_of_lt hhigh

/-! ## The error -/

variable {p q c : Nat}

theorem nearest_error (hq : 0 < q) (h : f.nearest p q < f.infinity) :
    2 * (p * 2 ^ f.grain) ≤ 2 * (f.grains (f.nearest p q) * q)
        + q * 2 ^ (f.nearest p q / 2 ^ f.fraction - 1) ∧
      2 * (f.grains (f.nearest p q) * q) ≤ 2 * (p * 2 ^ f.grain)
        + q * 2 ^ (f.nearest p q / 2 ^ f.fraction - 1) := by
  obtain ⟨k, r, -, hnearest, hr, hlow, hhigh⟩ := f.exists_nearest_eq p hq
  have hcode : f.nearest p q = k * 2 ^ f.fraction + r := by omega
  have hgrains : f.grains (f.nearest p q) = r * 2 ^ k := by
    rw [hcode, f.grains_steps (hlow.imp_right And.right) hhigh]
  have hk : k ≤ f.nearest p q / 2 ^ f.fraction - 1 := by
    rcases hlow with rfl | ⟨-, hr⟩
    · exact Nat.zero_le _
    · refine Nat.le_sub_one_of_lt ((Nat.le_div_iff_mul_le (Nat.two_pow_pos _)).mpr ?_)
      rw [hcode, Nat.succ_mul]
      exact Nat.add_le_add_left hr _
  have hstep : q * 2 ^ k ≤ q * 2 ^ (f.nearest p q / 2 ^ f.fraction - 1) :=
    Nat.mul_le_mul_left q (Nat.pow_le_pow_right (by decide) hk)
  have herror := roundHalfEven_error (p := p * 2 ^ f.grain) (Nat.mul_pos hq (Nat.two_pow_pos k))
  rw [← hr] at herror
  rw [hgrains, mul_two_pow_mul]
  omega

/-- What is less than half a step away from a magnitude within a block is rounded to it. -/
theorem nearest_eq_of_near (hc : c ≤ f.infinity) (hinner : c % 2 ^ f.fraction ≠ 0)
    (hblock : 2 ^ f.fraction ≤ c)
    (hlow : 2 * (f.grains c * q) < 2 * (p * 2 ^ f.grain) + q * 2 ^ (c / 2 ^ f.fraction - 1))
    (hhigh : 2 * (p * 2 ^ f.grain) < 2 * (f.grains c * q) + q * 2 ^ (c / 2 ^ f.fraction - 1)) :
    f.nearest p q = c := by
  have hblocks : 1 ≤ c / 2 ^ f.fraction := (Nat.one_le_div_iff (Nat.two_pow_pos _)).mpr hblock
  have hcode := Nat.div_add_mod' c (2 ^ f.fraction)
  have hplace : c % 2 ^ f.fraction < 2 ^ f.fraction := Nat.mod_lt _ (Nat.two_pow_pos _)
  rw [f.grains_of_le hblock] at hlow hhigh
  obtain ⟨k, hk⟩ := Nat.exists_eq_add_of_le' hblocks
  rw [hk, Nat.succ_mul] at hcode
  rw [hk, Nat.add_sub_cancel] at hlow hhigh
  generalize c % 2 ^ f.fraction = d at *
  rw [mul_two_pow_mul] at hlow hhigh
  have hround : roundHalfEven (p * 2 ^ f.grain) (q * 2 ^ k) = d + 2 ^ f.fraction :=
    roundHalfEven_eq hlow hhigh
  have hq : 0 < q := by
    refine Nat.pos_of_ne_zero ?_
    rintro rfl
    omega
  -- half a step does not lead out of the block
  have hdoublings : f.doublings (p * 2 ^ f.grain / q) = k := by
    have hleast : (2 ^ f.fraction + 1) * (q * 2 ^ k) ≤ (d + 2 ^ f.fraction) * (q * 2 ^ k) :=
      Nat.mul_le_mul_right _ (by omega)
    have hmost : (d + 2 ^ f.fraction + 1) * (q * 2 ^ k) ≤ 2 ^ (f.fraction + 1) * (q * 2 ^ k) :=
      Nat.mul_le_mul_right _ (by rw [Nat.pow_succ]; omega)
    rw [Nat.succ_mul] at hleast hmost
    refine f.doublings_eq_iff.mpr ⟨.inr ?_, ?_⟩
    · rw [Nat.le_div_iff_mul_le hq, Nat.pow_add, mul_two_pow_mul]
      omega
    · rw [Nat.div_lt_iff_lt_mul hq, Nat.add_right_comm, Nat.pow_add, mul_two_pow_mul]
      omega
  rw [nearest]
  simp only [Nat.pow_eq, hdoublings, hround]
  omega

theorem nearest_le (hq : 0 < q) {k : Nat} (h : p * 2 ^ f.grain < 2 ^ (f.fraction + k + 1) * q) :
    f.nearest p q ≤ (k + 2) * 2 ^ f.fraction := by
  obtain ⟨j, r, -, hnearest, -, hlow, hhigh⟩ := f.exists_nearest_eq p hq
  have hj : j ≤ k := by
    rcases hlow with rfl | ⟨hlow, -⟩
    · exact Nat.zero_le k
    · have hpow := Nat.lt_of_mul_lt_mul_right (Nat.lt_of_le_of_lt hlow h)
      have := (Nat.pow_lt_pow_iff_right (by decide : 1 < 2)).mp hpow
      omega
  have hblocks : j * 2 ^ f.fraction ≤ k * 2 ^ f.fraction := Nat.mul_le_mul_right _ hj
  rw [Nat.add_mul]
  omega

end BinaryFormat

end DeskCalculator
