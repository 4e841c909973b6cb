import DeskCalculator.Number.Numeral
import DeskCalculator.Proofs.Number.Packed
import DeskCalculator.Proofs.Number.Spacing

/-!
# Overflow

Behind the largest magnitude of a format the next step would lead to a power of two. What lies at
least halfway to that power is rounded to infinity, and nothing below is: at the half itself the
power wins, because its code is even.

A numeral is rounded as the fraction that it writes. Its power of ten is computed only within the
range of the format, and a power beyond it is one that overflows, or one whose value is below half a
grain. So for a numeral, too, the halfway point decides alone.
-/

namespace DeskCalculator

namespace BinaryFormat

variable (f : BinaryFormat) {p q : Nat}

/-- Halfway from the largest magnitude to the power of two behind it, in grains. -/
def overflow : Nat := (2 ^ (f.fraction + 2) - 1) * 2 ^ (2 ^ f.exponent - 4)

/-- Halfway is half a step of the last block below the power of two. -/
theorem overflow_add_pow {b : Nat} (hb : 2 ^ f.exponent = b + 4) :
    f.overflow + 2 ^ b = 2 ^ (f.fraction + (b + 2)) := by
  rw [overflow, hb, Nat.add_sub_cancel, ← Nat.succ_mul, Nat.succ_eq_add_one,
    Nat.sub_add_cancel Nat.one_le_two_pow, ← Nat.pow_add]
  congr 1
  omega

/-- **From halfway on, and from there only, a fraction is rounded to infinity.** -/
theorem nearest_eq_infinity_iff (he : 2 ≤ f.exponent) (hq : 0 < q) :
    f.nearest p q = f.infinity ↔ f.overflow * q ≤ p * 2 ^ f.grain := by
  obtain ⟨b, hb⟩ := Nat.exists_eq_add_of_le' (Nat.pow_le_pow_right (by decide : 0 < 2) he)
  have hinf : f.infinity = (b + 3) * 2 ^ f.fraction := by
    rw [infinity, Nat.pow_eq, Nat.pow_eq, hb]
    rfl
  obtain ⟨k, r, hk, hnearest, hr, hlow, hhigh⟩ := f.exists_nearest_eq p hq
  have hbound := (f.doublings_eq_iff.mp hk).2
  rw [Nat.div_lt_iff_lt_mul hq] at hbound
  -- the power behind the largest magnitude, in steps of the last block
  generalize hstep : q * 2 ^ (b + 1) = step at *
  have hpower : 2 ^ (f.fraction + (b + 2)) * q = 2 * 2 ^ f.fraction * step := by
    rw [← hstep]
    ring
  have hhalf : 2 * (f.overflow * q) + step = 2 * (2 * 2 ^ f.fraction * step) := by
    calc 2 * (f.overflow * q) + step
        = 2 * ((f.overflow + 2 ^ b) * q) := by
          rw [← hstep]
          ring
      _ = 2 * (2 * 2 ^ f.fraction * step) := by rw [f.overflow_add_pow hb, hpower]
  rw [hnearest, hinf, min_eq_left_iff]
  rcases Nat.lt_trichotomy k (b + 1) with hbelow | rfl | habove
  -- below the last block nothing comes near
  · have hblocks : k * 2 ^ f.fraction ≤ b * 2 ^ f.fraction := Nat.mul_le_mul_right _ (by omega)
    have hle : 2 ^ (f.fraction + k + 1) * q ≤ 2 ^ (f.fraction + b + 1) * q :=
      Nat.mul_le_mul_right q (Nat.pow_le_pow_right (by decide) (by omega))
    have hlast : 2 ^ (f.fraction + b + 1) * q = 2 ^ f.fraction * step := by
      rw [← hstep]
      ring
    have hpos : step ≤ 2 ^ f.fraction * step := Nat.le_mul_of_pos_left _ (Nat.two_pow_pos _)
    have hfraction : 0 < 2 ^ f.fraction := Nat.two_pow_pos _
    rw [Nat.mul_assoc] at hhalf
    refine iff_of_false (fun h ↦ ?_) fun h ↦ ?_
    · rw [Nat.add_mul] at h
      omega
    · omega
  -- in the last block the rounding decides
  · have hround : (b + 3) * 2 ^ f.fraction ≤ (b + 1) * 2 ^ f.fraction + r
        ↔ 2 * 2 ^ f.fraction ≤ r := by
      rw [show b + 3 = b + 1 + 2 from rfl, Nat.add_mul _ 2]
      exact Nat.add_le_add_iff_left
    have hpos : 0 < step := hstep ▸ Nat.mul_pos hq (Nat.two_pow_pos _)
    rw [hstep] at hr
    rw [hround, hr, le_roundHalfEven_iff_of_even hpos (Nat.mul_mod_right 2 _)]
    omega
  -- behind it everything is infinite
  · obtain ⟨hleast, hfull⟩ := hlow.resolve_left (by omega)
    have hblocks : (b + 2) * 2 ^ f.fraction ≤ k * 2 ^ f.fraction := Nat.mul_le_mul_right _ habove
    have hle : 2 ^ (f.fraction + (b + 2)) * q ≤ 2 ^ (f.fraction + k) * q :=
      Nat.mul_le_mul_right q (Nat.pow_le_pow_right (by decide) (by omega))
    rw [Nat.succ_mul]
    exact iff_of_true (by omega) (by omega)

theorem overflow_le (he : 2 ≤ f.exponent) :
    f.overflow ≤ 2 ^ 2 ^ (f.exponent - 1) * 2 ^ f.grain := by
  have hhalf : 2 ^ f.exponent = 2 * 2 ^ (f.exponent - 1) := by
    rw [← Nat.pow_succ', Nat.succ_eq_add_one, Nat.sub_add_cancel (by omega)]
  have htwo : 2 ^ 1 ≤ 2 ^ (f.exponent - 1) := Nat.pow_le_pow_right (by decide) (by omega)
  calc f.overflow
      ≤ 2 ^ (f.fraction + 2) * 2 ^ (2 ^ f.exponent - 4) := Nat.mul_le_mul_right _ (Nat.sub_le _ _)
    _ = 2 ^ (2 ^ (f.exponent - 1) + f.grain) := by
        rw [← Nat.pow_add, grain, Nat.pow_eq, hhalf]
        congr 1
        omega
    _ = 2 ^ 2 ^ (f.exponent - 1) * 2 ^ f.grain := Nat.pow_add _ _ _

theorem nearest_eq_zero (h : 2 * (p * 2 ^ f.grain) < q) : f.nearest p q = 0 := by
  have hdiv : p * 2 ^ f.grain / q = 0 := Nat.div_eq_of_lt (by omega)
  have hmod : p * 2 ^ f.grain % q = p * 2 ^ f.grain := Nat.mod_eq_of_lt (by omega)
  have hnone : f.doublings 0 = 0 := by rw [doublings, Nat.log2_zero, Nat.zero_sub]
  simp only [nearest, roundHalfEven, Nat.pow_eq, hdiv, hnone, Nat.pow_zero, Nat.mul_one, hmod,
    if_pos h, Nat.zero_mul, Nat.add_zero, Nat.min_zero]

end BinaryFormat

theorem ofDigitChars_lt {s : List Char} (hs : ∀ c ∈ s, c.isDigit = true) (init : Nat) :
    Nat.ofDigitChars 10 s init < 10 ^ s.length * (init + 1) := by
  induction s generalizing init with
  | nil => simp
  | cons c s ih =>
    rw [List.forall_mem_cons] at hs
    have hdigit : c.toNat - '0'.toNat < 10 := by
      have hc := hs.1
      simp only [Char.isDigit, Bool.and_eq_true, decide_eq_true_eq] at hc
      have hhigh : c.toNat ≤ 57 := hc.2
      change c.toNat - 48 < 10
      omega
    rw [Nat.ofDigitChars_cons, List.length_cons, Nat.pow_succ, Nat.mul_assoc]
    refine Nat.lt_of_lt_of_le (ih hs.2 _) (Nat.mul_le_mul_left _ ?_)
    omega

namespace Numeral

variable {n : Numeral}

theorem significand_lt (hn : n.isPlain = true) :
    n.significand < 10 ^ (n.whole.length + n.fraction.length) := by
  rw [isPlain, Bool.and_eq_true, Bool.and_eq_true, List.all_eq_true, List.all_eq_true] at hn
  have hdigits : ∀ c ∈ n.whole ++ n.fraction, c.isDigit = true :=
    List.forall_mem_append.mpr hn.1
  have h := ofDigitChars_lt hdigits 0
  rwa [List.length_append, Nat.zero_add, Nat.mul_one] at h

theorem nearest_of_large_power (f : BinaryFormat) (he : 2 ≤ f.exponent) (hzero : n.significand ≠ 0)
    {k : Nat} (hk : 2 ^ (f.exponent - 1) ≤ k) :
    f.nearest (n.significand * 10 ^ k) 1 = f.infinity := by
  have hpower : 2 ^ 2 ^ (f.exponent - 1) ≤ n.significand * 10 ^ k :=
    calc 2 ^ 2 ^ (f.exponent - 1)
        ≤ 2 ^ k := Nat.pow_le_pow_right (by decide) hk
      _ ≤ 10 ^ k := Nat.pow_le_pow_left (by decide) _
      _ ≤ n.significand * 10 ^ k := Nat.le_mul_of_pos_left _ (Nat.pos_of_ne_zero hzero)
  rw [f.nearest_eq_infinity_iff he Nat.one_pos, Nat.mul_one]
  exact Nat.le_trans (f.overflow_le he) (Nat.mul_le_mul_right _ hpower)

theorem nearest_of_small_power (f : BinaryFormat) (hn : n.isPlain = true) {k : Nat}
    (hk : n.whole.length + n.fraction.length + (f.grain + 1) ≤ k) :
    f.nearest n.significand (10 ^ k) = 0 := by
  refine f.nearest_eq_zero ?_
  calc 2 * (n.significand * 2 ^ f.grain)
      = n.significand * 2 ^ (f.grain + 1) := by ring
    _ < 10 ^ (n.whole.length + n.fraction.length) * 2 ^ (f.grain + 1) :=
        Nat.mul_lt_mul_of_pos_right (significand_lt hn) (Nat.two_pow_pos _)
    _ ≤ 10 ^ (n.whole.length + n.fraction.length) * 10 ^ (f.grain + 1) :=
        Nat.mul_le_mul_left _ (Nat.pow_le_pow_left (by decide) _)
    _ = 10 ^ (n.whole.length + n.fraction.length + (f.grain + 1)) := (Nat.pow_add _ _ _).symm
    _ ≤ 10 ^ k := Nat.pow_le_pow_right (by decide) hk

/-- **A numeral is rounded as the fraction that it writes**, whatever its power of ten is. -/
theorem code_eq_nearest (f : BinaryFormat) (he : 2 ≤ f.exponent) (hn : n.isPlain = true) :
    n.code f
      = f.nearest (n.significand * 10 ^ n.power.toNat) (10 ^ (-n.power).toNat) := by
  rw [code]
  split
  · next hzero => rw [hzero, Nat.zero_mul, f.nearest_zero (Nat.pow_pos (by decide))]
  · next hzero =>
    split
    · next hlarge =>
      rw [Nat.pow_eq] at hlarge
      have hpos : 0 ≤ n.power := Int.le_trans (Int.natCast_nonneg _) hlarge
      have hnone : (-n.power).toNat = 0 := by omega
      have hrange : 2 ^ (f.exponent - 1) ≤ n.power.toNat := by omega
      rw [hnone, Nat.pow_zero, nearest_of_large_power f he hzero hrange]
    · split
      · next hsmall =>
        have hnone : n.power.toNat = 0 := by omega
        rw [hnone, Nat.pow_zero, Nat.mul_one, nearest_of_small_power f hn (by omega)]
      · split
        · next hpos =>
          have hnone : (-n.power).toNat = 0 := by omega
          rw [hnone]
          rfl
        · next hneg =>
          have hnone : n.power.toNat = 0 := by omega
          rw [hnone, Nat.pow_zero, Nat.mul_one]
          rfl

/-- The magnitude of the numeral is halfway from the largest double to the next power of two, or
beyond that. -/
def Overflows (n : Numeral) : Prop :=
  (2 ^ 54 - 1) * 2 ^ 970 * 10 ^ (-n.power).toNat ≤ n.significand * 10 ^ n.power.toNat

instance (n : Numeral) : Decidable n.Overflows := Nat.decLe _ _

/-- **The value of a numeral is finite unless the numeral overflows.** -/
theorem isFinite_value_iff (hn : n.isPlain = true) : n.value.isFinite = true ↔ ¬ n.Overflows := by
  have hten : 0 < 10 ^ (-n.power).toNat := Nat.pow_pos (by decide)
  have hle : n.code .double ≤ BinaryFormat.double.infinity := by
    rw [code_eq_nearest _ (by decide) hn]
    exact Nat.min_le_left _ _
  have hover : BinaryFormat.double.overflow
      = (2 ^ 54 - 1) * 2 ^ 970 * 2 ^ BinaryFormat.double.grain := by
    have hfraction : 2 ^ (BinaryFormat.double.fraction + 2) - 1 = 2 ^ 54 - 1 := by decide
    have hgrains : 970 + BinaryFormat.double.grain = 2 ^ BinaryFormat.double.exponent - 4 := by
      decide
    rw [BinaryFormat.overflow, Nat.mul_assoc, ← Nat.pow_add, hfraction, hgrains]
  rw [value, Double.isFinite_iff, Double.code_ofCode _ hle, Nat.lt_iff_le_and_ne, and_iff_right hle,
    ne_eq, code_eq_nearest _ (by decide) hn,
    BinaryFormat.nearest_eq_infinity_iff _ (by decide) hten, hover, Overflows,
    Nat.mul_right_comm, Nat.mul_le_mul_right_iff (Nat.two_pow_pos _)]

end Numeral

end DeskCalculator
