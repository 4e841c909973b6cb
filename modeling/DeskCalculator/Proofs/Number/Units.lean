import DeskCalculator.Number.Decimal
import DeskCalculator.Proofs.Number.Spacing

/-!
# Rounding to units and reading back

A magnitude is rounded to a whole number of units, and the number of units is rounded to a magnitude
again. The units may be finer or coarser than the steps of the format there. Where the steps are
finer, the second rounding moves the number of units by less than half a unit, so it is found again.
Where the units are finer, the first rounding moves the magnitude by less than half a step, so it is
the magnitude that is found again. Either way, doing both once more changes nothing.
-/

namespace DeskCalculator

namespace BinaryFormat

variable (f : BinaryFormat)

/-- The nearest number of units to a magnitude, where there are `units` of them to one. -/
def inUnits (units code : Nat) : Nat := roundHalfEven (f.grains code * units) (2 ^ f.grain)

/-- The magnitude nearest to a magnitude that is rounded to units. -/
def rounded (units code : Nat) : Nat := f.nearest (f.inUnits units code) units

/-- The magnitude is a whole number. -/
def IsWhole (code : Nat) : Prop := 2 ^ f.grain ∣ f.grains code

variable {units s c : Nat}

theorem roundHalfEven_exact {places : Nat} (h : places ≤ f.grain) :
    roundHalfEven (f.exact c) (10 ^ (f.grain - places)) = f.inUnits (10 ^ places) c := by
  obtain ⟨rest, hrest⟩ := Nat.exists_eq_add_of_le' h
  have hfive : 0 < 5 ^ rest := Nat.pow_pos (by decide)
  have htwo : 0 < 2 ^ places := Nat.two_pow_pos _
  have hten : ∀ n, 10 ^ n = 2 ^ n * 5 ^ n := Nat.mul_pow 2 5
  have hexact : f.exact c = f.grains c * 5 ^ places * 5 ^ rest := by
    rw [exact, Nat.pow_eq, hrest, Nat.pow_add, Nat.mul_comm (5 ^ rest), Nat.mul_assoc]
  rw [hexact, hrest, Nat.add_sub_cancel, hten rest, roundHalfEven_mul_mul _ _ hfive,
    ← roundHalfEven_mul_mul _ _ htwo, inUnits, hten places, Nat.mul_assoc,
    Nat.mul_comm (5 ^ places), ← Nat.pow_add, ← hrest]

/-! ## Whole numbers -/

theorem isWhole_of_lt (h : f.grain < c / 2 ^ f.fraction) : f.IsWhole c := by
  have hblock : 2 ^ f.fraction ≤ c := by
    refine (Nat.one_le_div_iff (Nat.two_pow_pos _)).mp ?_
    omega
  rw [IsWhole, f.grains_of_le hblock]
  exact Nat.dvd_mul_left_of_dvd (Nat.pow_dvd_pow 2 (by omega)) _

theorem isWhole_of_mod_eq_zero (hblock : 2 ^ f.fraction ≤ c) (hmod : c % 2 ^ f.fraction = 0)
    (h : f.grain ≤ f.fraction + (c / 2 ^ f.fraction - 1)) : f.IsWhole c := by
  rw [IsWhole, f.grains_of_le hblock, hmod, Nat.zero_add, ← Nat.pow_add]
  exact Nat.pow_dvd_pow 2 h

/-! ## Finding again -/

/-- Where half a step is less than half a unit, the number of units is found again. -/
theorem inUnits_nearest {n : Nat} (hunits : 0 < units) (hfinite : f.nearest n units < f.infinity)
    (h : units * 2 ^ (f.nearest n units / 2 ^ f.fraction - 1) < 2 ^ f.grain) :
    f.inUnits units (f.nearest n units) = n := by
  obtain ⟨hlow, hhigh⟩ := f.nearest_error hunits hfinite
  exact roundHalfEven_eq (by omega) (by omega)

/-- Where half a unit is less than half a step, the magnitude is found again. -/
theorem rounded_eq (hc : c ≤ f.infinity) (hinner : c % 2 ^ f.fraction ≠ 0)
    (hblock : 2 ^ f.fraction ≤ c)
    (h : 2 ^ f.grain < units * 2 ^ (c / 2 ^ f.fraction - 1)) : f.rounded units c = c := by
  obtain ⟨hlow, hhigh⟩ := roundHalfEven_error (p := f.grains c * units) (Nat.two_pow_pos f.grain)
  exact f.nearest_eq_of_near hc hinner hblock (by rw [inUnits]; omega) (by rw [inUnits]; omega)

/-- **Rounding once more changes nothing.** The units lie between two neighbouring powers of two, so
that no step is as large as a unit. -/
theorem rounded_rounded (hlow : 2 ^ s < units) (hhigh : units < 2 ^ (s + 1))
    (hs : s ≤ f.fraction) (hg : s < f.grain) (hfinite : f.rounded units c < f.infinity)
    (hfraction : ¬ f.IsWhole (f.rounded units c)) :
    f.rounded units (f.rounded units c) = f.rounded units c := by
  have hunits : 0 < units := Nat.lt_of_le_of_lt (Nat.zero_le _) hlow
  generalize hk : f.rounded units c / 2 ^ f.fraction - 1 = k
  rcases Nat.lt_or_ge (s + k) f.grain with hfine | hcoarse
  · have hstep : units * 2 ^ k < 2 ^ f.grain :=
      calc units * 2 ^ k
          < 2 ^ (s + 1) * 2 ^ k := Nat.mul_lt_mul_of_pos_right hhigh (Nat.two_pow_pos k)
        _ = 2 ^ (s + 1 + k) := (Nat.pow_add 2 _ k).symm
        _ ≤ 2 ^ f.grain := Nat.pow_le_pow_right (by decide) (by omega)
    have hfound : f.inUnits units (f.rounded units c) = f.inUnits units c :=
      f.inUnits_nearest hunits hfinite (by rwa [← rounded, hk])
    rw [rounded, hfound, rounded]
  · have hblock : 2 ^ f.fraction ≤ f.rounded units c := by
      refine (Nat.one_le_div_iff (Nat.two_pow_pos _)).mp ?_
      omega
    have hinner : f.rounded units c % 2 ^ f.fraction ≠ 0 := fun hmod ↦
      hfraction (f.isWhole_of_mod_eq_zero hblock hmod (by omega))
    have hstep : 2 ^ f.grain < units * 2 ^ k :=
      calc 2 ^ f.grain
          ≤ 2 ^ (s + k) := Nat.pow_le_pow_right (by decide) hcoarse
        _ = 2 ^ s * 2 ^ k := Nat.pow_add 2 s k
        _ < units * 2 ^ k := Nat.mul_lt_mul_of_pos_right hlow (Nat.two_pow_pos k)
    exact f.rounded_eq (Nat.le_of_lt hfinite) hinner hblock (by rwa [hk])

theorem rounded_le (hunits : 0 < units) (hfraction : ¬ f.IsWhole c) :
    f.rounded units c ≤ (f.grain + 3) * 2 ^ f.fraction := by
  have hblocks : c / 2 ^ f.fraction ≤ f.grain :=
    Nat.not_lt.mp fun h ↦ hfraction (f.isWhole_of_lt h)
  have hgrains : f.grains c < 2 ^ (f.fraction + (f.grain + 1)) :=
    Nat.lt_of_lt_of_le (f.doublings_eq_iff.mp (f.doublings_grains c)).2
      (Nat.pow_le_pow_right (by decide) (by omega))
  have hmul : f.grains c * units < 2 ^ (f.fraction + (f.grain + 1)) * units :=
    Nat.mul_lt_mul_of_pos_right hgrains hunits
  have hgrain : 2 ^ f.grain ≤ 2 ^ (f.fraction + (f.grain + 1)) * units :=
    Nat.le_trans (Nat.pow_le_pow_right (by decide) (by omega)) (Nat.le_mul_of_pos_right _ hunits)
  have herror := (roundHalfEven_error (p := f.grains c * units) (Nat.two_pow_pos f.grain)).2
  refine f.nearest_le hunits ?_
  rw [Nat.pow_succ', Nat.mul_assoc, inUnits]
  omega

end BinaryFormat

end DeskCalculator
