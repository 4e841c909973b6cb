import DeskCalculator.Proofs.Number.Shortest
import DeskCalculator.Proofs.Number.Units

/-!
# The places of a shortest decimal

The decimal places of a magnitude are searched from the left, and the search ends at the first place
where a decimal reads back. A magnitude that some decimal of a few places reads back as is therefore
written with no more places than that, provided that the search comes so far: it ends behind the
seventeenth digit. There it has always found something, as long as the magnitude is not whole; for
one that has as many digits before the point the places do not matter.

What reads back lies in one stretch around the magnitude, because rounding keeps the order. So a
decimal that reads back has one of the two neighbours of the magnitude on its own grid between
itself and the magnitude, and that one reads back too.
-/

namespace DeskCalculator

/-! ## Rounding keeps the order -/

theorem roundHalfEven_mono {p p' : Nat} (q : Nat) (h : p ≤ p') :
    roundHalfEven p q ≤ roundHalfEven p' q := by
  have hbounds : ∀ n, n / q ≤ roundHalfEven n q ∧ roundHalfEven n q ≤ n / q + 1 := by
    intro n
    rw [roundHalfEven]
    split
    · omega
    · split <;> omega
  rcases Nat.lt_or_eq_of_le (Nat.div_le_div_right (c := q) h) with hlt | heq
  · exact Nat.le_trans (hbounds p).2 (Nat.le_trans hlt (hbounds p').1)
  -- with the same quotient the remainders decide
  · have hmod : p % q ≤ p' % q := by
      have hp := Nat.div_add_mod p q
      have hp' := Nat.div_add_mod p' q
      rw [← heq] at hp'
      omega
    rw [roundHalfEven, roundHalfEven, ← heq]
    rcases Nat.lt_trichotomy (2 * (p % q)) q with hlow | hhalf | hhigh
    · rw [if_pos hlow]
      split
      · exact Nat.le_refl _
      · split <;> omega
    · rw [if_neg (by omega), if_neg (by omega), if_neg (by omega)]
      split <;> omega
    · rw [if_neg (by omega), if_pos hhigh, if_neg (by omega), if_pos (by omega)]

namespace BinaryFormat

variable (f : BinaryFormat)

/-- **Rounding keeps the order.** -/
theorem nearest_mono {p p' q : Nat} (hq : 0 < q) (h : p ≤ p') :
    f.nearest p q ≤ f.nearest p' q := by
  have hgrains : p * 2 ^ f.grain ≤ p' * 2 ^ f.grain := Nat.mul_le_mul_right _ h
  obtain ⟨k, r, hk, hnearest, hr, -, hhigh⟩ := f.exists_nearest_eq p hq
  obtain ⟨k', r', hk', hnearest', hr', hlow', -⟩ := f.exists_nearest_eq p' hq
  have hle : k ≤ k' := by
    refine Nat.not_lt.mp fun hlt ↦ ?_
    have hlow := (f.doublings_eq_iff.mp hk).1.resolve_left (by omega)
    have hpow := Nat.lt_of_le_of_lt (Nat.le_trans hlow (Nat.div_le_div_right hgrains))
      (f.doublings_eq_iff.mp hk').2
    have := (Nat.pow_lt_pow_iff_right (by decide : 1 < 2)).mp hpow
    omega
  have hplace : k * 2 ^ f.fraction + r ≤ k' * 2 ^ f.fraction + r' := by
    rcases Nat.lt_or_eq_of_le hle with hlt | rfl
    -- a block has room for one more, and the next begins there
    · have hfull := hlow'.resolve_left (by omega)
      have hblocks : (k + 1) * 2 ^ f.fraction ≤ k' * 2 ^ f.fraction := Nat.mul_le_mul_right _ hlt
      rw [Nat.succ_mul] at hblocks
      omega
    · rw [hr, hr']
      exact Nat.add_le_add_left (roundHalfEven_mono _ hgrains) _
  rw [hnearest, hnearest']
  exact Nat.le_min.mpr ⟨Nat.min_le_left _ _, Nat.le_trans (Nat.min_le_right _ _) hplace⟩

/-! ## Grids -/

variable {c m unit : Nat}

theorem nearest_of_readsAs (h : f.readsAs c m = true) : f.nearest m (10 ^ f.grain) = c :=
  beq_iff_eq.mp h

theorem readsAs_of_between {low high : Nat} (hlow : f.readsAs c low = true)
    (hhigh : f.readsAs c high = true) (h : low ≤ m) (h' : m ≤ high) : f.readsAs c m = true := by
  have hten : 0 < 10 ^ f.grain := Nat.pow_pos (by decide)
  refine beq_iff_eq.mpr (Nat.le_antisymm ?_ ?_)
  · exact (f.nearest_mono hten h').trans_eq (f.nearest_of_readsAs hhigh)
  · exact (f.nearest_of_readsAs hlow).symm.trans_le (f.nearest_mono hten h)

theorem isSome_onGrid? (h : f.readsAs c (f.exact c / unit * unit) = true ∨
    f.readsAs c (f.exact c / unit * unit + unit) = true) : (f.onGrid? c unit).isSome = true := by
  simp only [onGrid?]
  split
  · rfl
  · next hlow =>
    split
    · rfl
    · next hhigh =>
      -- the lower one is passed over only for the upper
      refine absurd ?_ hlow
      rw [h.resolve_right hhigh, Bool.eq_false_iff.mpr hhigh, Bool.not_false, Bool.or_true,
        Bool.and_true]

theorem isSome_onGrid?_of_dvd (hc : c ≤ f.infinity) (hdvd : unit ∣ m) (hm : f.readsAs c m = true) :
    (f.onGrid? c unit).isSome = true := by
  have hexact := f.readsAs_exact hc
  have hlow : f.exact c / unit * unit ≤ f.exact c := Nat.div_mul_le_self _ _
  obtain ⟨j, rfl⟩ := hdvd
  rw [Nat.mul_comm] at hm
  refine f.isSome_onGrid? ?_
  rcases Nat.lt_or_ge (f.exact c) (j * unit) with habove | hbelow
  · right
    have hunit : 0 < unit := Nat.pos_of_mul_pos_left (Nat.lt_of_le_of_lt (Nat.zero_le _) habove)
    have hj : f.exact c / unit + 1 ≤ j := (Nat.div_lt_iff_lt_mul hunit).mpr habove
    refine f.readsAs_of_between hexact hm (Nat.le_of_lt (Nat.lt_div_mul_add hunit)) ?_
    rw [← Nat.succ_mul]
    exact Nat.mul_le_mul_right unit hj
  · left
    refine f.readsAs_of_between hm hexact ?_ hlow
    rcases Nat.eq_zero_or_pos unit with rfl | hunit
    · exact Nat.zero_le _
    · exact Nat.mul_le_mul_right unit ((Nat.le_div_iff_mul_le hunit).mpr hbelow)

theorem dvd_of_onGrid? {n : Nat} (h : f.onGrid? c unit = some n) : unit ∣ n := by
  simp only [onGrid?] at h
  split at h
  · exact Option.some.inj h ▸ Nat.dvd_mul_left _ _
  · split at h
    · exact Option.some.inj h ▸ (Nat.dvd_add_right (Nat.dvd_mul_left _ _)).mpr (Nat.dvd_refl _)
    · cases h

/-- The nearer neighbour on a grid reads back, if the grid is finer than the steps. -/
theorem isSome_onGrid?_of_lt (hc : c ≤ f.infinity) (hinner : c % 2 ^ f.fraction ≠ 0)
    (hblock : 2 ^ f.fraction ≤ c) (hunit : 0 < unit)
    (h : unit < 5 ^ f.grain * 2 ^ (c / 2 ^ f.fraction - 1)) :
    (f.onGrid? c unit).isSome = true := by
  have htwo : 0 < 2 ^ f.grain := Nat.two_pow_pos _
  have hten : 10 ^ f.grain = 5 ^ f.grain * 2 ^ f.grain := Nat.mul_pow 5 2 f.grain
  have hread : ∀ n, 2 * f.exact c ≤ 2 * n + unit → 2 * n ≤ 2 * f.exact c + unit →
      f.readsAs c n = true := by
    intro n hlow hhigh
    have hexact : f.grains c * 10 ^ f.grain = f.exact c * 2 ^ f.grain := by
      rw [hten, ← Nat.mul_assoc]
      rfl
    have hstep : 10 ^ f.grain * 2 ^ (c / 2 ^ f.fraction - 1)
        = 5 ^ f.grain * 2 ^ (c / 2 ^ f.fraction - 1) * 2 ^ f.grain := by
      rw [hten, Nat.mul_right_comm]
    refine beq_iff_eq.mpr (f.nearest_eq_of_near hc hinner hblock ?_ ?_)
    all_goals
      rw [Nat.pow_eq, hexact, hstep, ← Nat.mul_assoc, ← Nat.mul_assoc, ← Nat.add_mul]
      exact Nat.mul_lt_mul_of_pos_right (by omega) htwo
  have hexact : f.exact c / unit * unit + f.exact c % unit = f.exact c := Nat.div_add_mod' _ _
  have hmod : f.exact c % unit < unit := Nat.mod_lt _ hunit
  refine f.isSome_onGrid? ?_
  rcases Nat.lt_or_ge (2 * (f.exact c % unit)) unit with hnear | hfar
  · exact .inl (hread _ (by omega) (by omega))
  · exact .inr (hread _ (by omega) (by omega))

/-! ## The search -/

/-- The digits of the exact expansion. -/
def exactLength (c : Nat) : Nat := (Nat.toDigits 10 (f.exact c)).length

theorem shortest_eq (c : Nat) : f.shortest c = ((List.range mostDigits).findSome? fun i ↦
    f.onGrid? c (10 ^ (f.exactLength c - 1 - i))).getD (f.exact c) := rfl

theorem pow_lt_exactLength {e : Nat} (h : 10 ^ e ≤ f.exact c) : e < f.exactLength c := by
  rcases Nat.eq_zero_or_pos e with rfl | he
  · exact Nat.length_toDigits_pos
  · refine Nat.not_le.mp fun hlength ↦ ?_
    exact Nat.not_lt.mpr h ((Nat.length_toDigits_le_iff (by decide) he).mp hlength)

theorem pow_exactLength_le (h : 1 < f.exactLength c) : 10 ^ (f.exactLength c - 1) ≤ f.exact c := by
  refine Nat.not_lt.mp fun hlt ↦ ?_
  have hlength := (Nat.length_toDigits_le_iff (by decide) (by omega)).mpr hlt
  rw [← exactLength] at hlength
  omega

theorem pow_dvd_shortest_of_isSome {i : Nat} (hi : i < mostDigits)
    (h : (f.onGrid? c (10 ^ (f.exactLength c - 1 - i))).isSome = true) :
    10 ^ (f.exactLength c - 1 - i) ∣ f.shortest c := by
  rw [shortest_eq]
  cases hfind : (List.range mostDigits).findSome? fun i ↦
      f.onGrid? c (10 ^ (f.exactLength c - 1 - i)) with
  | none =>
    rw [List.findSome?_eq_none_iff.mp hfind i (List.mem_range.mpr hi)] at h
    cases h
  | some n =>
    obtain ⟨before, j, after, hsplit, hj, hbefore⟩ := List.findSome?_eq_some_iff.mp hfind
    have hle : j ≤ i := by
      have hmem : i ∈ before ++ j :: after := hsplit ▸ List.mem_range.mpr hi
      have hsorted : (before ++ j :: after).Pairwise (· < ·) := hsplit ▸ List.pairwise_lt_range
      rcases List.mem_append.mp hmem with hleft | hright
      · rw [hbefore i hleft] at h
        cases h
      · rcases List.mem_cons.mp hright with rfl | hafter
        · exact Nat.le_refl _
        · have hlater := (List.pairwise_cons.mp (List.pairwise_append.mp hsorted).2.1).1
          exact Nat.le_of_lt (hlater i hafter)
    have hplace : f.exactLength c - 1 - i ≤ f.exactLength c - 1 - j := by omega
    exact Nat.dvd_trans (Nat.pow_dvd_pow 10 hplace) (f.dvd_of_onGrid? hj)

/-- What the search finds has no digit behind the last place that it comes to; if it finds nothing,
the exact expansion is left. -/
theorem pow_dvd_shortest_or (c : Nat) :
    10 ^ (f.exactLength c - mostDigits) ∣ f.shortest c ∨ f.shortest c = f.exact c := by
  rw [shortest_eq]
  cases hfind : (List.range mostDigits).findSome? fun i ↦
      f.onGrid? c (10 ^ (f.exactLength c - 1 - i)) with
  | none => exact .inr rfl
  | some n =>
    obtain ⟨i, hmem, hi⟩ := List.exists_of_findSome?_eq_some hfind
    have hlt : i < mostDigits := List.mem_range.mp hmem
    have hplace : f.exactLength c - mostDigits ≤ f.exactLength c - 1 - i := by omega
    exact .inl (Nat.dvd_trans (Nat.pow_dvd_pow 10 hplace) (f.dvd_of_onGrid? hi))

theorem shortest_of_exact_eq_zero (hc : c ≤ f.infinity) (h : f.exact c = 0) : f.shortest c = 0 := by
  have hread : f.readsAs c 0 = true := h ▸ f.readsAs_exact hc
  have hgrid : f.onGrid? c (10 ^ 0) = some 0 := by
    simp [onGrid?, h, hread]
  have hlength : f.exactLength c = 1 := by
    rw [exactLength, h]
    rfl
  have hrange : List.range mostDigits = 0 :: (List.range (mostDigits - 1)).map Nat.succ := rfl
  rw [shortest_eq, hrange, List.findSome?_cons, hlength, Nat.sub_self, hgrid]
  rfl

/-! ## Enough digits -/

variable {f} in
theorem IsWhole.pow_dvd_exact (h : f.IsWhole c) : 10 ^ f.grain ∣ f.exact c := by
  have hten : 10 ^ f.grain = 2 ^ f.grain * 5 ^ f.grain := Nat.mul_pow 2 5 f.grain
  rw [hten]
  exact Nat.mul_dvd_mul_right h _

theorem inner_of_not_isWhole (hgrain : f.fraction ≤ f.grain) (hfraction : ¬ f.IsWhole c)
    (h : 2 ^ f.grain ≤ f.grains c) : 2 ^ f.fraction ≤ c ∧ c % 2 ^ f.fraction ≠ 0 := by
  have hblock : 2 ^ f.fraction ≤ c := by
    refine Nat.not_lt.mp fun hlt ↦ ?_
    rw [f.grains_of_lt hlt] at h
    have := Nat.pow_le_pow_right (by decide : 0 < 2) hgrain
    omega
  refine ⟨hblock, fun hmod ↦ hfraction (f.isWhole_of_mod_eq_zero hblock hmod ?_)⟩
  have hbound := Nat.lt_of_le_of_lt h (f.doublings_eq_iff.mp (f.doublings_grains c)).2
  have := (Nat.pow_lt_pow_iff_right (by decide : 1 < 2)).mp hbound
  omega

/-- **Seventeen digits are enough** for a magnitude of one or more that is not whole. -/
theorem isSome_onGrid?_mostDigits (hdigits : 2 ^ (f.fraction + 1) ≤ 10 ^ (mostDigits - 1))
    (hgrain : f.fraction ≤ f.grain) (hc : c ≤ f.infinity) (hfraction : ¬ f.IsWhole c)
    (h : 10 ^ f.grain ≤ f.exact c) (hlength : mostDigits ≤ f.exactLength c) :
    (f.onGrid? c (10 ^ (f.exactLength c - mostDigits))).isSome = true := by
  have hfive : 0 < 5 ^ f.grain := Nat.pow_pos (by decide)
  have hten : 10 ^ f.grain = 2 ^ f.grain * 5 ^ f.grain := Nat.mul_pow 2 5 f.grain
  have hgrains : 2 ^ f.grain ≤ f.grains c := by
    rw [hten] at h
    exact Nat.le_of_mul_le_mul_right h hfive
  obtain ⟨hblock, hinner⟩ := f.inner_of_not_isWhole hgrain hfraction hgrains
  refine f.isSome_onGrid?_of_lt hc hinner hblock (Nat.pow_pos (by decide)) ?_
  have hmost : 1 < mostDigits := by decide
  have hsteps := (f.doublings_eq_iff.mp (f.doublings_grains c)).2
  generalize c / 2 ^ f.fraction - 1 = k at hsteps ⊢
  refine Nat.lt_of_mul_lt_mul_right (a := 10 ^ (mostDigits - 1)) ?_
  calc 10 ^ (f.exactLength c - mostDigits) * 10 ^ (mostDigits - 1)
      = 10 ^ (f.exactLength c - 1) := by rw [← Nat.pow_add]; congr 1; omega
    _ ≤ f.exact c := f.pow_exactLength_le (by omega)
    _ = f.grains c * 5 ^ f.grain := rfl
    _ < 2 ^ (f.fraction + k + 1) * 5 ^ f.grain := Nat.mul_lt_mul_of_pos_right hsteps hfive
    _ = 5 ^ f.grain * 2 ^ k * 2 ^ (f.fraction + 1) := by
      rw [Nat.add_right_comm, Nat.pow_add, Nat.mul_comm, Nat.mul_comm (2 ^ (f.fraction + 1)),
        Nat.mul_assoc]
    _ ≤ 5 ^ f.grain * 2 ^ k * 10 ^ (mostDigits - 1) := Nat.mul_le_mul_left _ hdigits

/-- **A magnitude is written with no more places than are needed to read it back.** The decimal that
is known to read back is not below one of its own units. -/
theorem pow_dvd_shortest (hdigits : 2 ^ (f.fraction + 1) ≤ 10 ^ (mostDigits - 1))
    (hgrain : f.fraction ≤ f.grain) (hc : c ≤ f.infinity) {e : Nat} (he : e ≤ f.grain)
    (he' : f.grain ≤ e + mostDigits) (hdvd : 10 ^ e ∣ m) (hm : f.readsAs c m = true)
    (h : 10 ^ e ≤ f.exact c) : 10 ^ e ∣ f.shortest c := by
  have hlength := f.pow_lt_exactLength h
  have hmost : 1 ≤ mostDigits := by decide
  rcases Nat.lt_or_ge (f.exactLength c - 1 - e) mostDigits with hnear | hfar
  -- the search comes to this place
  · have hplace : f.exactLength c - 1 - (f.exactLength c - 1 - e) = e := by omega
    have hsome := f.isSome_onGrid?_of_dvd hc hdvd hm
    rw [← hplace] at hsome ⊢
    exact f.pow_dvd_shortest_of_isSome hnear hsome
  · by_cases hwhole : f.IsWhole c
    · rcases f.pow_dvd_shortest_or c with hfound | hexact
      · exact Nat.dvd_trans (Nat.pow_dvd_pow 10 (by omega)) hfound
      · rw [hexact]
        exact Nat.dvd_trans (Nat.pow_dvd_pow 10 he) hwhole.pow_dvd_exact
    -- the search has ended in front of it
    · have hlarge : 10 ^ f.grain ≤ f.exact c :=
        calc 10 ^ f.grain
            ≤ 10 ^ (f.exactLength c - 1) := Nat.pow_le_pow_right (by decide) (by omega)
          _ ≤ f.exact c := f.pow_exactLength_le (by omega)
      have hsome :=
        f.isSome_onGrid?_mostDigits hdigits hgrain hc hwhole hlarge (by omega)
      have hlast : f.exactLength c - mostDigits = f.exactLength c - 1 - (mostDigits - 1) := by
        omega
      have hplace : e ≤ f.exactLength c - 1 - (mostDigits - 1) := by omega
      rw [hlast] at hsome
      exact Nat.dvd_trans (Nat.pow_dvd_pow 10 hplace)
        (f.pow_dvd_shortest_of_isSome (by decide) hsome)

/-! ## Places behind the point -/

theorem pow_dvd_shortest_of_isWhole (hdigits : 2 ^ (f.fraction + 1) ≤ 10 ^ (mostDigits - 1))
    (hgrain : f.fraction ≤ f.grain) (hc : c ≤ f.infinity) (hwhole : f.IsWhole c) :
    10 ^ f.grain ∣ f.shortest c := by
  rcases Nat.eq_zero_or_pos (f.exact c) with hzero | hpos
  · rw [f.shortest_of_exact_eq_zero hc hzero]
    exact Nat.dvd_zero _
  · exact f.pow_dvd_shortest hdigits hgrain hc (Nat.le_refl _) (Nat.le_add_right _ _)
      hwhole.pow_dvd_exact (f.readsAs_exact hc) (Nat.le_of_dvd hpos hwhole.pow_dvd_exact)

/-- A number of units of a place is written without further places once it is read, provided that
one unit is read as no less than it is. -/
theorem pow_dvd_shortest_nearest (hdigits : 2 ^ (f.fraction + 1) ≤ 10 ^ (mostDigits - 1))
    (hgrain : f.fraction ≤ f.grain) {places : Nat} (hplaces : places ≤ f.grain)
    (hmost : places ≤ mostDigits)
    (hunit : 10 ^ (f.grain - places) ≤ f.exact (f.nearest 1 (10 ^ places))) (n : Nat) :
    10 ^ (f.grain - places) ∣ f.shortest (f.nearest n (10 ^ places)) := by
  have hten : ∀ k, 0 < 10 ^ k := fun k ↦ Nat.pow_pos (by decide)
  have hfinite : ∀ m, f.nearest m (10 ^ places) ≤ f.infinity := fun m ↦ Nat.min_le_left _ _
  rcases Nat.eq_zero_or_pos n with rfl | hn
  · have hexact : f.exact 0 = 0 := by
      rw [exact, f.grains_of_lt (Nat.two_pow_pos _), Nat.zero_mul]
    rw [f.nearest_zero (hten _), f.shortest_of_exact_eq_zero (Nat.zero_le _) hexact]
    exact Nat.dvd_zero _
  have hread : f.readsAs (f.nearest n (10 ^ places)) (n * 10 ^ (f.grain - places)) = true := by
    have h := f.nearest_mul_mul n (10 ^ places) (hten (f.grain - places))
    rw [← Nat.pow_add, Nat.add_sub_cancel' hplaces] at h
    exact beq_iff_eq.mpr h
  refine f.pow_dvd_shortest hdigits hgrain (hfinite n) (Nat.sub_le _ _) (by omega)
    (Nat.dvd_mul_left _ n) hread (Nat.not_lt.mp fun hlt ↦ ?_)
  -- it is read as no less than one unit is, and so would be read as that
  have hone := f.nearest_mono (hten places) hn
  have hle := f.nearest_mono (hten f.grain) (Nat.le_trans (Nat.le_of_lt hlt) hunit)
  rw [f.nearest_of_readsAs (f.readsAs_exact (hfinite n)),
    f.nearest_of_readsAs (f.readsAs_exact (hfinite 1))] at hle
  rw [Nat.le_antisymm hle hone] at hlt
  exact Nat.not_lt.mpr hunit hlt

end BinaryFormat

end DeskCalculator
