import DeskCalculator.Proofs.Number.Grains
import DeskCalculator.Proofs.Number.Rounding

/-!
# Arithmetic on grains

In single precision a number is a sign, a mantissa of at most twenty-four bits and an exponent: the
mantissa counts the steps, and the exponent says how large they are. Counted in grains instead, a
difference is the exact difference rounded to a whole number of steps, and numbers are compared as
whole numbers. Nothing is out of range here.
-/

namespace DeskCalculator

open Float.Model (Format UnpackedFloat)
open Float.Model.UnpackedFloat

namespace Single

/-! ## Signs -/

@[simp] theorem apply_zero (s : Sign) : s.apply 0 = 0 := by
  cases s <;> rfl

@[simp] theorem natAbs_apply (s : Sign) (n : Nat) : (s.apply (n : Int)).natAbs = n := by
  cases s <;> simp [Sign.apply]

theorem negative_apply_lt {n : Nat} (hn : n ≠ 0) : Sign.negative.apply (n : Int) < 0 := by
  rw [Sign.apply]
  omega

theorem lt_positive_apply {n : Nat} (hn : n ≠ 0) : 0 < Sign.positive.apply (n : Int) := by
  rw [Sign.apply]
  omega

/-! ## Rounding -/

/-- The number of grains `n` with a sign, in the form that arithmetic gives it: a mantissa of the
steps there. -/
def unpacked (s : Sign) (n : Nat) : UnpackedFloat :=
  if h : n / 2 ^ BinaryFormat.single.doublings n = 0 then .zero s
  else .finite s (n / 2 ^ BinaryFormat.single.doublings n)
    (BinaryFormat.single.doublings n - 149) (Nat.pos_of_ne_zero h)

theorem log2_mul_two_pow {m : Nat} (hm : m ≠ 0) (j : Nat) : (m * 2 ^ j).log2 = m.log2 + j := by
  have hpos : 0 < 2 ^ j := Nat.two_pow_pos j
  refine (Nat.log2_eq_iff (Nat.mul_ne_zero hm (Nat.ne_of_gt hpos))).mpr ⟨?_, ?_⟩
  · rw [Nat.pow_add]
    exact Nat.mul_le_mul_right _ (Nat.log2_self_le hm)
  · rw [Nat.add_right_comm, Nat.pow_add]
    exact Nat.mul_lt_mul_of_pos_right Nat.lt_log2_self hpos

theorem targetExponent_eq {m j : Nat} (hm : m ≠ 0 ∨ j = 0) :
    Format.binary32.targetExponent (Float.Model.totalExponent m (j - 149))
      = BinaryFormat.single.doublings (m * 2 ^ j) - 149 := by
  have hbits : (Format.binary32.mantissaBits : Int) = 24 := rfl
  have hmin : Format.binary32.minExponent = -149 := rfl
  have hlog : (m * 2 ^ j).log2 = m.log2 + j := by
    rcases hm with hm | rfl
    · exact log2_mul_two_pow hm j
    · rw [Nat.pow_zero, Nat.mul_one, Nat.add_zero]
  have hdoublings : BinaryFormat.single.doublings (m * 2 ^ j) = m.log2 + j - 23 := by
    rw [BinaryFormat.doublings, hlog]
    rfl
  rw [Format.targetExponent, Float.Model.totalExponent, hbits, hmin, hdoublings]
  omega

theorem shiftToTargetExponent_eq {m j : Nat} (hm : m ≠ 0 ∨ j = 0) {d : Nat}
    (hd : BinaryFormat.single.doublings (m * 2 ^ j) = d) (hj : j ≤ d) :
    shiftToTargetExponent .binary32 m (j - 149) .exact
      = (ExtendedMantissa.ofMantissaAndAccuracy m .exact >>> (d - j), (d : Int) - 149) := by
  have hshift : ((d : Int) - 149 - (j - 149)).toNat = d - j := by omega
  have hexp : (j : Int) - 149 + (d - j : Nat) = d - 149 := by omega
  simp only [shiftToTargetExponent, shiftToExponent, targetExponent_eq hm, hd, hshift, hexp]

/-- **A number is rounded to a whole number of steps.** -/
theorem roundWithAccuracy_eq (s : Sign) {m j : Nat} (hm : m ≠ 0)
    (hj : j ≤ BinaryFormat.single.doublings (m * 2 ^ j)) :
    roundWithAccuracy .binary32 s m (j - 149) .exact
      = unpacked s (BinaryFormat.single.roundGrains (m * 2 ^ j)) := by
  generalize hd : BinaryFormat.single.doublings (m * 2 ^ j) = d at hj
  have hpow : 2 ^ d = 2 ^ (d - j) * 2 ^ j := by rw [← Nat.pow_add, Nat.sub_add_cancel hj]
  generalize hr : roundHalfEven m (2 ^ (d - j)) = r
  have hround : BinaryFormat.single.roundGrains (m * 2 ^ j) = r * 2 ^ d := by
    rw [BinaryFormat.roundGrains, hd, hpow, roundHalfEven_mul_mul _ _ (Nat.two_pow_pos j), hr]
  -- with several grains in a step the leading bit stays in place, or moves up by one
  have hfull : d ≠ 0 → 2 ^ (BinaryFormat.single.fraction + d) ≤ r * 2 ^ d := by
    intro hzero
    rw [← hround, ← hd]
    exact BinaryFormat.single.le_roundGrains (hd ▸ hzero)
  have hr' : r ≠ 0 ∨ d = 0 := by
    by_cases hzero : d = 0
    · exact .inr hzero
    · refine .inl ?_
      rintro rfl
      have := hfull hzero
      have := Nat.two_pow_pos (BinaryFormat.single.fraction + d)
      omega
  have hd' : d ≤ BinaryFormat.single.doublings (r * 2 ^ d) := by
    by_cases hzero : d = 0
    · omega
    · exact BinaryFormat.single.le_doublings (hfull hzero)
  rw [hround]
  generalize hlast : BinaryFormat.single.doublings (r * 2 ^ d) = d' at hd'
  have hmantissa : r * 2 ^ d / 2 ^ d' = r / 2 ^ (d' - d) := by
    rw [← Nat.mul_div_mul_right r _ (Nat.two_pow_pos d), ← Nat.pow_add, Nat.sub_add_cancel hd']
  simp only [roundWithAccuracy, shiftToTargetExponent_eq (.inl hm) hd hj,
    roundedMantissa_shiftRight, hr, shiftToTargetExponent_eq hr' hlast hd', mantissa_shiftRight,
    mantissa_ofMantissaAndAccuracy, unpacked, hlast, hmantissa]

theorem decreaseExponent_eq (m : Nat) {i j : Nat} (hi : i ≤ j) :
    decreaseExponent m (j - 149) (i - 149) = (m * 2 ^ (j - i), (i : Int) - 149) := by
  have hshift : ((j : Int) - 149 - (i - 149)).toNat = j - i := by omega
  have hexp : (j : Int) - 149 - (j - i : Nat) = i - 149 := by omega
  rw [decreaseExponent, hshift, hexp, Nat.shiftLeft_eq]

theorem round_eq (s : Sign) {m : Nat} (hm : m ≠ 0) (j : Nat) :
    UnpackedFloat.round .binary32 s m (j - 149)
      = unpacked s (BinaryFormat.single.roundGrains (m * 2 ^ j)) := by
  rw [UnpackedFloat.round, targetExponent_eq (.inl hm)]
  generalize hd : BinaryFormat.single.doublings (m * 2 ^ j) = d
  rcases Nat.le_total d j with hle | hle
  · have hsame : m * 2 ^ (j - d) * 2 ^ d = m * 2 ^ j := by
      rw [Nat.mul_assoc, ← Nat.pow_add, Nat.sub_add_cancel hle]
    have hm' : m * 2 ^ (j - d) ≠ 0 := Nat.mul_ne_zero hm (Nat.ne_of_gt (Nat.two_pow_pos _))
    simp only [decreaseExponent_eq m hle]
    rw [roundWithAccuracy_eq s hm' (by rw [hsame, hd]), hsame]
  · have hnone : decreaseExponent m (j - 149) (d - 149) = (m, (j : Int) - 149) := by
      have hshift : ((j : Int) - 149 - (d - 149)).toNat = 0 := by omega
      rw [decreaseExponent, hshift, Nat.shiftLeft_zero]
      simp
    simp only [hnone]
    exact roundWithAccuracy_eq s hm (by rwa [hd])

@[simp] theorem unpacked_zero (s : Sign) : unpacked s 0 = .zero s := by
  simp [unpacked]

/-- **What is computed exactly is rounded by its magnitude.** -/
theorem exists_normalize_eq (n : Int) (j : Nat) : ∃ s,
    UnpackedFloat.normalize .binary32 n (j - 149) .positive
      = unpacked s (BinaryFormat.single.roundGrains (n.natAbs * 2 ^ j)) := by
  rcases Int.lt_trichotomy n 0 with h | rfl | h
  · have hn : (-n).toNat = n.natAbs := by omega
    refine ⟨.negative, ?_⟩
    simp only [UnpackedFloat.normalize, Int.compare_eq_lt.mpr h, hn]
    exact round_eq .negative (by omega) j
  · refine ⟨.positive, ?_⟩
    simp [UnpackedFloat.normalize]
  · have hn : n.toNat = n.natAbs := by omega
    refine ⟨.positive, ?_⟩
    simp only [UnpackedFloat.normalize, Int.compare_eq_gt.mpr h, hn]
    exact round_eq .positive (by omega) j

/-! ## Mantissas -/

theorem exists_mantissa {n : Nat} (hn : BinaryFormat.single.IsMagnitude n) (hpos : n ≠ 0) :
    ∃ m k : Nat, ∃ hm : 0 < m, n = m * 2 ^ k ∧ m < 2 ^ 24 ∧ (k = 0 ∨ 2 ^ 23 ≤ m) ∧
      ∀ s, unpacked s n = .finite s m (k - 149) hm := by
  have hlow : BinaryFormat.single.doublings n = 0 ∨
      2 ^ (23 + BinaryFormat.single.doublings n) ≤ n :=
    (BinaryFormat.single.doublings_eq_iff.mp rfl).1
  have hhigh : n < 2 ^ (24 + BinaryFormat.single.doublings n) := by
    have h : n < 2 ^ (23 + BinaryFormat.single.doublings n + 1) :=
      BinaryFormat.single.lt_pow_doublings n
    rwa [Nat.add_right_comm] at h
  rw [BinaryFormat.IsMagnitude] at hn
  generalize hk : BinaryFormat.single.doublings n = k at hn hlow hhigh
  have hstep : 0 < 2 ^ k := Nat.two_pow_pos k
  have hmul : n = n / 2 ^ k * 2 ^ k := (Nat.div_mul_cancel hn).symm
  have hm : 0 < n / 2 ^ k := Nat.div_pos (Nat.le_of_dvd (Nat.pos_of_ne_zero hpos) hn) hstep
  refine ⟨n / 2 ^ k, k, hm, hmul, ?_, hlow.imp_right fun h ↦ ?_, fun s ↦ ?_⟩
  · rwa [Nat.div_lt_iff_lt_mul hstep, ← Nat.pow_add]
  · rwa [Nat.le_div_iff_mul_le hstep, ← Nat.pow_add]
  · simp only [unpacked, hk]
    exact dif_neg (Nat.ne_of_gt hm)

theorem unpacked_mul_two_pow {m k : Nat} (hm : 0 < m) (hbits : m < 2 ^ 24)
    (hk : k = 0 ∨ 2 ^ 23 ≤ m) : BinaryFormat.single.IsMagnitude (m * 2 ^ k) ∧
      BinaryFormat.single.doublings (m * 2 ^ k) = k ∧
      ∀ s, unpacked s (m * 2 ^ k) = .finite s m (k - 149) hm := by
  have hstep : 0 < 2 ^ k := Nat.two_pow_pos k
  have hdoublings : BinaryFormat.single.doublings (m * 2 ^ k) = k := by
    refine (BinaryFormat.doublings_eq_iff _).mpr ⟨hk.imp_right fun h ↦ ?_, ?_⟩
    · rw [Nat.pow_add]
      exact Nat.mul_le_mul_right _ h
    · rw [Nat.add_right_comm, Nat.pow_add]
      exact Nat.mul_lt_mul_of_pos_right hbits hstep
  refine ⟨?_, hdoublings, fun s ↦ ?_⟩
  · rw [BinaryFormat.IsMagnitude, hdoublings]
    exact Nat.dvd_mul_left _ _
  · simp only [unpacked, hdoublings, Nat.mul_div_cancel m hstep]
    exact dif_neg (Nat.ne_of_gt hm)

/-! ## Differences -/

theorem exists_sub_finite_eq (s t : Sign) {m m' : Nat} (k k' : Nat) (hm : 0 < m) (hm' : 0 < m') :
    ∃ r, UnpackedFloat.sub .binary32 (.finite s m (k - 149) hm) (.finite t m' (k' - 149) hm')
      = unpacked r (BinaryFormat.single.roundGrains
        (s.apply (m * 2 ^ k : Nat) - t.apply (m' * 2 ^ k' : Nat)).natAbs) := by
  obtain ⟨i, hi⟩ : ∃ i, min k k' = i := ⟨_, rfl⟩
  have hmin : min ((k : Int) - 149) (k' - 149) = i - 149 := by omega
  obtain ⟨r, hr⟩ := exists_normalize_eq
    (s.apply (m * 2 ^ (k - i) : Nat) - t.apply (m' * 2 ^ (k' - i) : Nat)) i
  have hscale : ∀ (s : Sign) (m : Nat) {k : Nat}, i ≤ k →
      s.apply (m * 2 ^ (k - i) : Nat) * (2 ^ i : Nat) = s.apply (m * 2 ^ k : Nat) := by
    intro s m k hle
    have hsame : m * 2 ^ (k - i) * 2 ^ i = m * 2 ^ k := by
      rw [Nat.mul_assoc, ← Nat.pow_add, Nat.sub_add_cancel hle]
    cases s <;> simp only [Sign.apply, Int.neg_mul, ← Int.natCast_mul, hsame]
  have hexact : (s.apply (m * 2 ^ k : Nat) - t.apply (m' * 2 ^ k' : Nat)).natAbs
      = (s.apply (m * 2 ^ (k - i) : Nat) - t.apply (m' * 2 ^ (k' - i) : Nat)).natAbs * 2 ^ i := by
    rw [← hscale s m (by omega), ← hscale t m' (by omega), ← Int.sub_mul, Int.natAbs_mul,
      Int.natAbs_natCast]
  refine ⟨r, ?_⟩
  rw [hexact, ← hr]
  simp only [UnpackedFloat.sub, hmin, decreaseExponent_eq m (show i ≤ k by omega),
    decreaseExponent_eq m' (show i ≤ k' by omega)]

/-- **A difference is the magnitude of the exact difference, rounded.** -/
theorem exists_sub_eq (s t : Sign) {n n' : Nat} (hn : BinaryFormat.single.IsMagnitude n)
    (hn' : BinaryFormat.single.IsMagnitude n') : ∃ r,
      UnpackedFloat.sub .binary32 (unpacked s n) (unpacked t n')
        = unpacked r (BinaryFormat.single.roundGrains (s.apply n - t.apply n').natAbs) := by
  by_cases hpos : n = 0
  · subst hpos
    have hexact : (s.apply ((0 : Nat) : Int) - t.apply n').natAbs = n' := by simp
    rw [unpacked_zero, hexact]
    by_cases hpos' : n' = 0
    · subst hpos'
      simp only [unpacked_zero, BinaryFormat.roundGrains_zero, UnpackedFloat.sub]
      split
      · exact ⟨_, rfl⟩
      · exact ⟨_, rfl⟩
    · obtain ⟨m, k, hm, -, -, -, hform⟩ := exists_mantissa hn' hpos'
      refine ⟨-t, ?_⟩
      rw [hn'.roundGrains_eq, hform, hform]
      rfl
  · obtain ⟨m, k, hm, hmul, -, -, hform⟩ := exists_mantissa hn hpos
    by_cases hpos' : n' = 0
    · subst hpos'
      have hexact : (s.apply (n : Int) - t.apply ((0 : Nat) : Int)).natAbs = n := by simp
      refine ⟨s, ?_⟩
      rw [unpacked_zero, hexact, hn.roundGrains_eq, hform]
      rfl
    · obtain ⟨m', k', hm', hmul', -, -, hform'⟩ := exists_mantissa hn' hpos'
      rw [hform, hform', hmul, hmul']
      exact exists_sub_finite_eq s t k k' hm hm'

/-! ## Comparing -/

/-- With all bits in the mantissas the larger step decides, and within a step the mantissa. -/
theorem compare_mantissas {m m' k k' : Nat} (hbits : m < 2 ^ 24) (hbits' : m' < 2 ^ 24)
    (hk : k = 0 ∨ 2 ^ 23 ≤ m) (hk' : k' = 0 ∨ 2 ^ 23 ≤ m') :
    (compare ((k : Int) - 149) (k' - 149)).then (compare m m')
      = compare (m * 2 ^ k : Nat) (m' * 2 ^ k') := by
  have hless : ∀ {m m' k k' : Nat}, m < 2 ^ 24 → (k' = 0 ∨ 2 ^ 23 ≤ m') → k < k' →
      m * 2 ^ k < m' * 2 ^ k' := by
    intro m m' k k' hbits hk' hlt
    calc m * 2 ^ k
        < 2 ^ 24 * 2 ^ k := Nat.mul_lt_mul_of_pos_right hbits (Nat.two_pow_pos k)
      _ = 2 ^ 23 * 2 ^ (k + 1) := by rw [← Nat.pow_add, ← Nat.pow_add, Nat.add_right_comm 23 1 k,
          Nat.add_assoc]
      _ ≤ 2 ^ 23 * 2 ^ k' := Nat.mul_le_mul_left _ (Nat.pow_le_pow_right (by decide) hlt)
      _ ≤ m' * 2 ^ k' := Nat.mul_le_mul_right _ (hk'.resolve_left (by omega))
  rcases Nat.lt_trichotomy k k' with hlt | rfl | hlt
  · rw [Int.compare_eq_lt.mpr (by omega), Nat.compare_eq_lt.mpr (hless hbits hk' hlt)]
    rfl
  · have hstep : 0 < 2 ^ k := Nat.two_pow_pos k
    simp only [Int.compare_eq_eq.mpr rfl, Nat.compare_eq_ite_lt, Nat.mul_lt_mul_right hstep]
    rfl
  · rw [Int.compare_eq_gt.mpr (by omega), Nat.compare_eq_gt.mpr (hless hbits' hk hlt)]
    rfl

@[simp] theorem compare_zero_zero (s t : Sign) :
    (UnpackedFloat.zero s).compare (.zero t) = some .eq := rfl

theorem compare_zero_unpacked (s t : Sign) {n : Nat} (hn : BinaryFormat.single.IsMagnitude n) :
    (UnpackedFloat.zero s).compare (unpacked t n) = some (compare 0 (t.apply (n : Int))) := by
  by_cases hpos : n = 0
  · simp [hpos]
  obtain ⟨m, k, hm, -, -, -, hform⟩ := exists_mantissa hn hpos
  rw [hform]
  cases t with
  | negative => exact congrArg some (Int.compare_eq_gt.mpr (negative_apply_lt hpos)).symm
  | positive => exact congrArg some (Int.compare_eq_lt.mpr (lt_positive_apply hpos)).symm

theorem compare_unpacked_zero (s t : Sign) {n : Nat} (hn : BinaryFormat.single.IsMagnitude n) :
    (unpacked s n).compare (.zero t) = some (compare (s.apply (n : Int)) 0) := by
  by_cases hpos : n = 0
  · simp [hpos]
  obtain ⟨m, k, hm, -, -, -, hform⟩ := exists_mantissa hn hpos
  rw [hform]
  cases s with
  | negative => exact congrArg some (Int.compare_eq_lt.mpr (negative_apply_lt hpos)).symm
  | positive => exact congrArg some (Int.compare_eq_gt.mpr (lt_positive_apply hpos)).symm

/-- **Numbers are compared by their grains.** -/
theorem compare_unpacked (s t : Sign) {n n' : Nat} (hn : BinaryFormat.single.IsMagnitude n)
    (hn' : BinaryFormat.single.IsMagnitude n') :
    (unpacked s n).compare (unpacked t n')
      = some (compare (s.apply (n : Int)) (t.apply (n' : Int))) := by
  by_cases hpos : n = 0
  · simpa [hpos] using compare_zero_unpacked s t hn'
  by_cases hpos' : n' = 0
  · simpa [hpos'] using compare_unpacked_zero s t hn
  obtain ⟨m, k, hm, hmul, hbits, hk, hform⟩ := exists_mantissa hn hpos
  obtain ⟨m', k', hm', hmul', hbits', hk', hform'⟩ := exists_mantissa hn' hpos'
  have hcompare := compare_mantissas hbits hbits' hk hk'
  rw [← hmul, ← hmul'] at hcompare
  rw [hform, hform']
  cases s with
  | negative =>
    cases t with
    | negative =>
      rw [UnpackedFloat.compare, hcompare, Nat.compare_swap, Nat.compare_eq_ite_lt,
        Int.compare_eq_ite_lt]
      simp only [Sign.apply, Int.neg_lt_neg_iff, Int.ofNat_lt]
    | positive =>
      have hlt := Int.lt_trans (negative_apply_lt hpos) (lt_positive_apply hpos')
      exact congrArg some (Int.compare_eq_lt.mpr hlt).symm
  | positive =>
    cases t with
    | negative =>
      have hlt := Int.lt_trans (negative_apply_lt hpos') (lt_positive_apply hpos)
      exact congrArg some (Int.compare_eq_gt.mpr hlt).symm
    | positive =>
      rw [UnpackedFloat.compare, hcompare, Nat.compare_eq_ite_lt, Int.compare_eq_ite_lt]
      simp only [Sign.apply, Int.ofNat_lt]

end Single

end DeskCalculator
