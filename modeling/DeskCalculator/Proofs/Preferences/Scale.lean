import DeskCalculator.Preferences.Stored
import DeskCalculator.Proofs.Number.Single
import DeskCalculator.Proofs.Preferences.Distance

/-!
# The nearest size

The size that is taken is the first of the least rounded distance. Rounding keeps the order of the
distances, so up to the smallest size the smallest is taken. Between the smallest and the largest
the distances are not rounded at all, and a larger factor has no smaller nearest size. Above the
largest size the distances decrease along the list, and the largest size is taken as long as
rounding leaves the last of them less than the one before. For large whole numbers it does not: they
are given a smaller size, and are the only factors that have a larger nearest size below them.
-/

namespace DeskCalculator

/-! ## The first of the least -/

/-- Replacing the best so far by what is better ends with no more than any other, and with less than
any in front. -/
theorem foldl_first_least {α : Type} {better : α → α → Prop} [DecidableRel better]
    (place distance : α → Nat) (hbetter : ∀ s t, better s t ↔ distance s < distance t)
    {x : α} {l : List α} (hl : (x :: l).Pairwise (place · < place ·)) {r : α}
    (hr : l.foldl (fun best s ↦ if better s best then s else best) x = r) :
    ∀ s ∈ x :: l, distance r ≤ distance s ∧ (place s < place r → distance r < distance s) := by
  induction l generalizing x with
  | nil =>
    obtain rfl : x = r := hr
    intro s hs
    rw [List.mem_singleton.mp hs]
    exact ⟨Nat.le_refl _, fun h ↦ absurd h (Nat.lt_irrefl _)⟩
  | cons y l ih =>
    obtain ⟨hx, hl'⟩ := List.pairwise_cons.mp hl
    have hxy : place x < place y := hx y (List.mem_cons_self ..)
    rw [List.foldl_cons] at hr
    intro s hs
    by_cases hcase : better y x
    · rw [if_pos hcase] at hr
      have hleast := ih hl' hr
      rcases List.mem_cons.mp hs with rfl | hs
      · have hlt : distance r < distance s :=
          Nat.lt_of_le_of_lt (hleast y (List.mem_cons_self ..)).1 ((hbetter y s).mp hcase)
        exact ⟨Nat.le_of_lt hlt, fun _ ↦ hlt⟩
      · exact hleast s hs
    · have hle : distance x ≤ distance y := Nat.not_lt.mp fun h ↦ hcase ((hbetter y x).mpr h)
      have hskip : (x :: l).Pairwise (place · < place ·) :=
        List.pairwise_cons.mpr ⟨fun s hs ↦ hx s (List.mem_cons_of_mem y hs), hl'.of_cons⟩
      rw [if_neg hcase] at hr
      have hleast := ih hskip hr
      have hfirst := hleast x (List.mem_cons_self ..)
      rcases List.mem_cons.mp hs with rfl | hs
      · exact hfirst
      rcases List.mem_cons.mp hs with rfl | hs
      · exact ⟨Nat.le_trans hfirst.1 hle,
          fun h ↦ Nat.lt_of_lt_of_le (hfirst.2 (Nat.lt_trans hxy h)) hle⟩
      · exact hleast s (List.mem_cons_of_mem x hs)

namespace Scale

open BinaryFormat

variable {v w : Float32}

/-! ## The offered factors -/

/-- The factor in units of `2 ^ -24`. -/
def units : Scale → Nat
  | smallest => 13421773
  | small => 15099494
  | normal => 16777216
  | large => 18454938
  | largest => 20971520

theorem mem_all (s : Scale) : s ∈ all := by
  cases s <;> decide

theorem pairwise_units : all.Pairwise (units · < units ·) := by decide

theorem units_bounds (s : Scale) : 13421773 ≤ s.units ∧ s.units ≤ 20971520 := by
  cases s <;> decide

theorem units_injective {s t : Scale} (h : s.units = t.units) : s = t := by
  cases s <;> cases t <;> first | rfl | cases h

@[simp] theorem isFinite_factor (s : Scale) : s.factor.isFinite = true := by
  cases s <;> decide +kernel

@[simp] theorem grains_factor (s : Scale) : Single.grains s.factor = s.units * 2 ^ 125 := by
  cases s <;> decide +kernel

theorem factor_le_iff (hv : v.isFinite = true) (s : Scale) :
    s.factor ≤ v ↔ s.units * 2 ^ 125 ≤ Single.grains v := by
  simp [Single.le_iff, hv]

theorem le_factor_iff (hv : v.isFinite = true) (s : Scale) :
    v ≤ s.factor ↔ Single.grains v ≤ s.units * 2 ^ 125 := by
  simp [Single.le_iff, hv]

theorem factor_le_factor_iff (s t : Scale) : s.factor ≤ t.factor ↔ s.units ≤ t.units := by
  rw [factor_le_iff t.isFinite_factor, grains_factor]
  omega

/-! ## Distances -/

/-- The distance of a size from a factor, in grains, as it is computed. -/
def roundedDistance (v : Float32) (s : Scale) : Nat :=
  single.roundGrains (s.units * 2 ^ 125 - Single.grains v).natAbs

/-- A distance does not overflow: the largest numbers are a step below the first one out of range,
and the factors are less than half of that step. -/
theorem distance_eq (hv : v.isFinite = true) (s : Scale) :
    (distance v s).isFinite = true ∧ Single.grains (distance v s) = roundedDistance v s := by
  have hfactor := s.units_bounds.2
  have hrange : single.doublings (roundedDistance v s) ≤ 253 := by
    obtain ⟨hmagnitude, hstep⟩ := Single.isStorable_natAbs_grains hv
    refine hmagnitude.doublings_roundGrains_le single hstep ?_
    omega
  rw [roundedDistance, ← grains_factor] at hrange ⊢
  exact Single.grains_abs_sub s.isFinite_factor hv hrange

theorem distance_lt_iff (hv : v.isFinite = true) (s t : Scale) :
    distance v s < distance v t ↔ roundedDistance v s < roundedDistance v t := by
  obtain ⟨hs, hs'⟩ := distance_eq hv s
  obtain ⟨ht, ht'⟩ := distance_eq hv t
  rw [Single.lt_iff hs ht, hs', ht', Int.ofNat_lt]

/-- **The nearest size is the first of the least rounded distance.** -/
theorem nearest_first (hv : v.isFinite = true) (s : Scale) :
    roundedDistance v (nearest v) ≤ roundedDistance v s ∧
      (s.units < (nearest v).units → roundedDistance v (nearest v) < roundedDistance v s) := by
  have hr := (if_pos hv : nearest v = _).symm
  exact foldl_first_least units (roundedDistance v) (distance_lt_iff hv) pairwise_units hr
    s s.mem_all

theorem nearest_eq (hv : v.isFinite = true) {s : Scale}
    (hbefore : ∀ t, t.units < s.units → roundedDistance v s < roundedDistance v t)
    (hbehind : ∀ t, s.units < t.units → roundedDistance v s ≤ roundedDistance v t) :
    nearest v = s := by
  have hfirst := nearest_first hv s
  refine units_injective ?_
  rcases Nat.lt_trichotomy (nearest v).units s.units with hlt | heq | hlt
  · have := hbefore _ hlt
    omega
  · exact heq
  · have := hbehind _ hlt
    have := hfirst.2 hlt
    omega

/-! ## Up to the smallest size -/

theorem nearest_eq_smallest (hv : v.isFinite = true) (h : v ≤ smallest.factor) :
    nearest v = smallest := by
  rw [le_factor_iff hv] at h
  refine nearest_eq hv (fun t ht ↦ absurd ht (Nat.not_lt.mpr t.units_bounds.1)) fun t ht ↦ ?_
  refine single.roundGrains_mono ?_
  omega

/-! ## Between the sizes -/

theorem roundedDistance_eq (hv : v.isFinite = true) (hlow : smallest.factor ≤ v)
    (hhigh : v ≤ largest.factor) (s : Scale) :
    roundedDistance v s = (s.units * 2 ^ 125 - Single.grains v).natAbs := by
  rw [factor_le_iff hv, units] at hlow
  rw [le_factor_iff hv, units] at hhigh
  obtain ⟨hmagnitude, -⟩ := Single.isStorable_natAbs_grains hv
  obtain ⟨m, hm⟩ := hmagnitude.pow_dvd (k := 125) (by omega)
  have hbounds := s.units_bounds
  have hexact : (s.units * 2 ^ 125 - Single.grains v).natAbs
      = 2 ^ 124 * (2 * ((s.units : Int) - m).natAbs) := by omega
  refine IsMagnitude.roundGrains_eq single ?_
  refine Nat.dvd_trans (Nat.pow_dvd_pow 2 (doublings_single_le (k := 124) ?_)) ⟨_, hexact⟩
  omega

theorem nearest_mono_of_between (hv : v.isFinite = true) (hw : w.isFinite = true)
    (hlow : smallest.factor ≤ v) (hle : v ≤ w) (hhigh : w ≤ largest.factor) :
    (nearest v).units ≤ (nearest w).units := by
  refine Nat.not_lt.mp fun hlt ↦ ?_
  have hless := (nearest_first hv (nearest w)).2 hlt
  have hleast := (nearest_first hw (nearest v)).1
  have hle' := (Single.le_iff hv hw).mp hle
  have hlow' : smallest.factor ≤ w :=
    (factor_le_iff hw _).mpr (((factor_le_iff hv _).mp hlow).trans hle')
  have hhigh' : v ≤ largest.factor :=
    (le_factor_iff hv _).mpr (hle'.trans ((le_factor_iff hw _).mp hhigh))
  rw [roundedDistance_eq hv hlow hhigh', roundedDistance_eq hv hlow hhigh'] at hless
  rw [roundedDistance_eq hw hlow' hhigh, roundedDistance_eq hw hlow' hhigh] at hleast
  -- the first factor is beyond the middle of the two sizes, the second one is not
  omega

/-! ## Above the largest size -/

/-- A whole number from `2 ^ 22 + 2` on. One has `2 ^ 149` grains. -/
def IsRemote (v : Float32) : Prop := 4194306 ≤ v ∧ 2 ^ 149 ∣ Single.grains v

theorem isRemote_iff (hv : v.isFinite = true) :
    IsRemote v ↔ 4194306 * 2 ^ 149 ≤ Single.grains v ∧ 2 ^ 149 ∣ Single.grains v := by
  have hfinite : Float32.isFinite 4194306 = true := by decide +kernel
  have hgrains : Single.grains 4194306 = 4194306 * 2 ^ 149 := by decide +kernel
  rw [IsRemote, Single.le_iff hfinite hv, hgrains]

theorem roundedDistance_largest_lt_iff (hv : v.isFinite = true) (h : largest.factor ≤ v) :
    roundedDistance v largest < roundedDistance v large ↔ ¬ IsRemote v := by
  rw [factor_le_iff hv, units] at h
  obtain ⟨hmagnitude, -⟩ := Single.isStorable_natAbs_grains hv
  have hx : (largest.units * 2 ^ 125 - Single.grains v).natAbs + 5 * 2 ^ 147
      = (Single.grains v).natAbs := by
    rw [units]
    omega
  have hy : (large.units * 2 ^ 125 - Single.grains v).natAbs + 9227469 * 2 ^ 126
      = (Single.grains v).natAbs := by
    rw [units]
    omega
  have hremote : IsRemote v ↔
      4194306 * 2 ^ 149 ≤ (Single.grains v).natAbs ∧ 2 ^ 149 ∣ (Single.grains v).natAbs := by
    rw [isRemote_iff hv, ← Int.natCast_dvd]
    refine and_congr_left' ?_
    omega
  rw [hremote]
  refine ⟨fun hlt hfar ↦ ?_, roundGrains_lt_of_not_remote hmagnitude hx hy⟩
  exact absurd hlt (Nat.not_lt.mpr (roundGrains_le_of_remote hx hy hfar.1 hfar.2))

/-- Above the largest size the largest is taken, except for large whole numbers. -/
theorem nearest_eq_largest_iff (hv : v.isFinite = true) (h : largest.factor ≤ v) :
    nearest v = largest ↔ ¬ IsRemote v := by
  rw [← roundedDistance_largest_lt_iff hv h]
  refine ⟨fun hlargest ↦ ?_, fun hlt ↦ nearest_eq hv (fun t ht ↦ ?_) fun t ht ↦ ?_⟩
  · have hfirst := (nearest_first hv large).2
    rw [hlargest] at hfirst
    exact hfirst (by decide)
  · have hle : t.units ≤ large.units := by
      cases t <;> first | decide | exact absurd ht (by decide)
    refine Nat.lt_of_lt_of_le hlt (single.roundGrains_mono ?_)
    have hlarge : large.units ≤ largest.units := by decide
    rw [factor_le_iff hv] at h
    omega
  · exact absurd ht (Nat.not_lt.mpr t.units_bounds.2)

/-! ## The offered range -/

theorem nearest_mono (hv : v.isFinite = true) (hw : w.isFinite = true) (hle : v ≤ w)
    (hnear : ¬ IsRemote w) : (nearest v).units ≤ (nearest w).units := by
  have hle' := (Single.le_iff hv hw).mp hle
  rcases Int.le_total (Single.grains v) (smallest.units * 2 ^ 125) with hlow | hlow
  · rw [nearest_eq_smallest hv ((le_factor_iff hv _).mpr hlow)]
    exact (nearest w).units_bounds.1
  rcases Int.le_total (largest.units * 2 ^ 125) (Single.grains w) with hhigh | hhigh
  · rw [(nearest_eq_largest_iff hw ((factor_le_iff hw _).mpr hhigh)).mpr hnear]
    exact (nearest v).units_bounds.2
  · exact nearest_mono_of_between hv hw ((factor_le_iff hv _).mpr hlow) hle
      ((le_factor_iff hw _).mpr hhigh)

theorem not_isRemote_of_mono (hw : w.isFinite = true)
    (hmono : ∀ v : Float32, v.isFinite = true → v ≤ w → (nearest v).units ≤ (nearest w).units) :
    ¬ IsRemote w := by
  intro hfar
  have hgrains := ((isRemote_iff hw).mp hfar).1
  have hle : largest.factor ≤ w := by
    rw [factor_le_iff hw, units]
    omega
  have hlargest : nearest largest.factor = largest := by decide +kernel
  have hbound := hmono largest.factor largest.isFinite_factor hle
  rw [hlargest] at hbound
  have hsame : nearest w = largest :=
    units_injective (Nat.le_antisymm (nearest w).units_bounds.2 hbound)
  exact (nearest_eq_largest_iff hw hle).mp hsame hfar

end Scale

/-! ## Loading -/

theorem Preferences.scale_load {text : List Char} {pieces : List Record.Piece} {f : Stored.Fields}
    {v : Float32} (hpieces : Record.pieces text = some pieces)
    (hfields : Stored.fields pieces = some (f, [])) (hfactor : f.factor = some v) :
    (Preferences.load (some text)).scale = Scale.nearest v := by
  have hread : Preferences.read? text
      = some { isDark := f.isDark.getD false, scale := Scale.nearest v } := by
    simp only [Preferences.read?, hpieces, Option.bind_eq_bind, Option.bind_some, hfields, hfactor]
    rfl
  rw [Preferences.load, Option.bind_some, hread]
  rfl

namespace Scale

variable {w : Float32}

/-- **The size is clamped to the offered range, up to large whole numbers.** Up to 0.8 the smallest
size is taken. From 1.25 on the largest is taken, except for whole numbers from `2 ^ 22 + 2` on,
where single precision does not tell its distance from that of the size before. They are the only
factors for which the order is lost. A factor is brought to the nearest size when it is chosen and
when it is read from the store. -/
theorem nearest_clamped (hw : w.isFinite = true) :
    nearest w ∈ all ∧
      (w ≤ 0.8 → nearest w = smallest) ∧
      (1.25 ≤ w → (nearest w = largest ↔ ¬ IsRemote w)) ∧
      ((∀ v : Float32, v.isFinite = true → v ≤ w → (nearest v).factor ≤ (nearest w).factor) ↔
        ¬ IsRemote w) ∧
      (∀ p : Preferences, (p.chooseScale w).scale = nearest w) ∧
      ∀ text pieces f, Record.pieces text = some pieces →
        Stored.fields pieces = some (f, []) → f.factor = some w →
        (Preferences.load (some text)).scale = nearest w := by
  simp only [factor_le_factor_iff]
  refine ⟨(nearest w).mem_all, nearest_eq_smallest hw, nearest_eq_largest_iff hw,
    ⟨not_isRemote_of_mono hw, fun hnear v hv hle ↦ nearest_mono hv hw hle hnear⟩,
    fun _ ↦ rfl, fun _ _ _ ↦ Preferences.scale_load⟩

/-- Ten thousand million is a large whole number: it is given the smallest size, and a factor below
has a larger one. One tenth is given the smallest size as well, and seven and a half in the store is
read as the largest. -/
theorem nearest_clamped_far :
    ((1.25 : Float32) ≤ 10000000000 ∧ nearest 10000000000 = smallest ∧ IsRemote 10000000000 ∧
        ∃ v : Float32, v.isFinite = true ∧ v ≤ 10000000000 ∧
          ¬ (nearest v).factor ≤ (nearest 10000000000).factor) ∧
      nearest 0.1 = smallest ∧
      (Preferences.load (some "(mode_sombre:false,echelle:7.5)".toList)).scale = largest := by
  refine ⟨?_, (nearest_clamped (w := 0.1) (by decide +kernel)).2.1 (by decide +kernel), ?_⟩
  · have hle : (1.25 : Float32) ≤ 10000000000 := by decide +kernel
    have hsmallest : nearest 10000000000 = smallest := by decide +kernel
    obtain ⟨-, -, hlargest, hmono, -⟩ := nearest_clamped (w := 10000000000) (by decide +kernel)
    have hremote : IsRemote 10000000000 := by
      refine not_not.mp fun hnear ↦ ?_
      have h := (hlargest hle).mpr hnear
      rw [hsmallest] at h
      cases h
    have hlost := mt hmono.mp (not_not.mpr hremote)
    push Not at hlost
    exact ⟨hle, hsmallest, hremote, hlost⟩
  · have hnear : ¬ IsRemote 7.5 := by
      rw [isRemote_iff (by decide +kernel)]
      decide +kernel
    obtain ⟨-, -, hlargest, -, -, hload⟩ := nearest_clamped (w := 7.5) (by decide +kernel)
    rw [hload _
      [.mark '(', .name "mode_sombre".toList, .mark ':', .name "false".toList, .mark ',',
        .name "echelle".toList, .mark ':', .number "7.5".toList, .mark ')']
      { isDark := some false, factor := Record.single? "7.5".toList }
      (by decide +kernel) rfl (by decide +kernel)]
    exact (hlargest (by decide +kernel)).mpr hnear

end Scale

end DeskCalculator
