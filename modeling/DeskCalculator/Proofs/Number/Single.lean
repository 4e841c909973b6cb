import DeskCalculator.Proofs.Number.Unpacked

/-!
# Numbers in single precision

A finite number in single precision is a whole number of grains with a sign. Its grains decide how
it compares with another one, and the distance of two numbers has the grains of their exact
distance, rounded, as long as that is in range.
-/

namespace DeskCalculator

open Float.Model (Format UnpackedFloat)
open Float.Model.UnpackedFloat

namespace Single

/-! ## Patterns -/

/-- A number of grains that a pattern stands for: a magnitude below the power of two that would be
the next. -/
def IsStorable (n : Nat) : Prop :=
  BinaryFormat.single.IsMagnitude n ∧ BinaryFormat.single.doublings n ≤ 253

theorem isStorable_zero : IsStorable 0 := ⟨BinaryFormat.single.isMagnitude_zero, by decide⟩

/-- A mantissa with an exponent in range is a number of grains. -/
theorem exists_eq_unpacked (s : Sign) {m k : Nat} {e : Int} (hm : 0 < m) (hbits : m < 2 ^ 24)
    (hk : k = 0 ∨ 2 ^ 23 ≤ m) (he : e = k - 149) (hrange : k ≤ 253) :
    ∃ s' n, IsStorable n ∧ UnpackedFloat.finite s m e hm = unpacked s' n := by
  obtain ⟨hmagnitude, hdoublings, hform⟩ := unpacked_mul_two_pow hm hbits hk
  refine ⟨s, m * 2 ^ k, ⟨hmagnitude, by omega⟩, ?_⟩
  rw [hform, he]

/-- **A finite pattern stands for a number of grains.** -/
theorem exists_unpack_eq {b : BitVec Format.binary32.numBits}
    (h : (unpack .binary32 b).isFinite = true) :
    ∃ s n, IsStorable n ∧ unpack .binary32 b = unpacked s n := by
  have hbias : (Format.binary32.exponentBias : Int) + (23 : Nat) = 150 := rfl
  have hmant : (unpackMantissa b).toNat < 2 ^ 23 := (unpackMantissa b).isLt
  have hfield : (unpackExponent b).toNat < 2 ^ 8 := (unpackExponent b).isLt
  simp only [unpack, hbias] at h ⊢
  split at h
  · split at h <;> cases h
  · next hones =>
    rw [if_neg hones]
    have hmax : (unpackExponent b).toNat ≠ 255 := fun h ↦ hones (BitVec.eq_of_toNat_eq h)
    split
    · next hzero =>
      have hnone : (unpackExponent b).toNat = 0 := congrArg BitVec.toNat hzero
      split
      · exact ⟨_, 0, isStorable_zero, (unpacked_zero _).symm⟩
      · exact exists_eq_unpacked (k := 0) _ _ (Nat.lt_trans hmant (by decide)) (.inl rfl)
          (by omega) (by decide)
    · next hzero =>
      have hsome : (unpackExponent b).toNat ≠ 0 := fun h ↦ hzero (BitVec.eq_of_toNat_eq h)
      have hleading : (1#1 ++ unpackMantissa b).toNat = 2 ^ 23 + (unpackMantissa b).toNat :=
        toNat_leadingBit_append _
      exact exists_eq_unpacked (k := (unpackExponent b).toNat - 1) _ _ (by omega)
        (.inr (by omega)) (by omega) (by omega)

theorem unpack_packComponents_normal (s : Sign) {k : Nat} (hk : 0 < k) (hk' : k < 255)
    (m : BitVec 23) : unpack .binary32 (packComponents .binary32 s (BitVec.ofNat 8 k) m)
      = .finite s (2 ^ 23 + m.toNat) (k - 150) (by omega) :=
  unpack_packComponents .binary32 s hk (Nat.succ_lt_succ hk') m

theorem unpack_packComponents_subnormal (s : Sign) {m : Nat} (hm : 0 < m) (hbits : m < 2 ^ 23) :
    unpack .binary32 (packComponents .binary32 s 0#8 (BitVec.ofNat 23 m))
      = .finite s m (-149) hm := by
  have hmant : (BitVec.ofNat 23 m).toNat = m := Nat.mod_eq_of_lt hbits
  have hones : (0#8 : BitVec 8) ≠ -1#8 := by decide
  have hne : BitVec.ofNat 23 m ≠ 0#23 := by
    intro h
    have h' : m = 0 := hmant ▸ congrArg BitVec.toNat h
    omega
  have hexp : ((0#8).toNat : Int) - (Format.binary32.exponentBias + (23 : Nat)) + 1 = -149 := rfl
  simp only [unpack, unpackExponent_packComponents, unpackMantissa_packComponents,
    unpackSign_packComponents, Sign.ofBitVec_toBitVec, if_neg hones, if_pos, dif_neg hne, hmant,
    hexp]

/-- **Storing a number of grains changes nothing.** -/
theorem unpack_pack_unpacked (s : Sign) {n : Nat} (hn : IsStorable n) :
    unpack .binary32 (pack .binary32 (unpacked s n)) = unpacked s n := by
  by_cases hpos : n = 0
  · rw [hpos, unpacked_zero]
    exact unpack_packedZero
  obtain ⟨m, k, hm, hmul, hbits, hk, hform⟩ := exists_mantissa hn.1 hpos
  have hrange : k ≤ 253 := by
    have h := hn.2
    rwa [hmul, (unpacked_mul_two_pow hm hbits hk).2.1] at h
  have hbiased : ((k : Int) - 149 + (Format.binary32.exponentBias : Nat) + (23 : Nat)).toNat
      = k + 1 := by
    have hbias : (Format.binary32.exponentBias : Int) = 127 := rfl
    omega
  have hlarge : ¬ 2 ^ 8 ≤ k + 1 + 1 := by omega
  rw [hform]
  simp only [pack, hbiased, if_neg hlarge]
  -- a mantissa with all its bits has an exponent field, a shorter one the field of zero
  split
  · next hfull =>
    have hlow : 2 ^ 23 ≤ m := (Nat.le_log2 (Nat.ne_of_gt hm)).mp (Nat.le_of_succ_le_succ hfull.ge)
    have hmantissa : 2 ^ 23 + (BitVec.ofNat 23 m).toNat = m := by
      rw [BitVec.toNat_ofNat]
      omega
    have hexp : ((k + 1 : Nat) : Int) - 150 = k - 149 := by omega
    rw [unpack_packComponents_normal s (by omega) (by omega)]
    simp only [hmantissa, hexp]
  · next hfull =>
    have hhigh : m < 2 ^ 23 := by
      refine Nat.not_le.mp fun hlow ↦ hfull ?_
      rw [(Nat.log2_eq_iff (Nat.ne_of_gt hm)).mpr ⟨hlow, hbits⟩]
      rfl
    obtain rfl : k = 0 := hk.resolve_right (Nat.not_le.mpr hhigh)
    exact unpack_packComponents_subnormal s hm hhigh

/-! ## Numbers in single precision -/

/-- What a number stands for. -/
def parts (x : Float32) : UnpackedFloat := x.toModel.unpack

/-- The grains of a finite number, with its sign. -/
def grains (x : Float32) : Int :=
  match parts x with
  | .finite s m e _ => s.apply (m * 2 ^ (e + 149).toNat : Nat)
  | _ => 0

variable {x y : Float32}

theorem grains_of_parts_eq {s : Sign} {n : Nat} (hn : IsStorable n)
    (hparts : parts x = unpacked s n) : grains x = s.apply n := by
  rw [grains, hparts]
  by_cases hpos : n = 0
  · simp [hpos]
  · obtain ⟨m, k, hm, hmul, -, -, hform⟩ := exists_mantissa hn.1 hpos
    have hexp : ((k : Int) - 149 + 149).toNat = k := by omega
    rw [hform]
    simp only [hexp, ← hmul]

theorem exists_parts_eq (h : x.isFinite = true) :
    ∃ s n, IsStorable n ∧ parts x = unpacked s n ∧ grains x = s.apply n := by
  obtain ⟨s, n, hn, hparts⟩ := exists_unpack_eq (b := x.toModel.toBits.toBitVec) h
  exact ⟨s, n, hn, hparts, grains_of_parts_eq hn hparts⟩

theorem isStorable_natAbs_grains (h : x.isFinite = true) : IsStorable (grains x).natAbs := by
  obtain ⟨s, n, hn, -, hgrains⟩ := exists_parts_eq h
  simpa [hgrains] using hn

@[simp] theorem abs_unpacked (s : Sign) (n : Nat) : (unpacked s n).abs = unpacked .positive n := by
  rw [unpacked, unpacked]
  split <;> rfl

@[simp] theorem isFinite_unpacked (s : Sign) (n : Nat) : (unpacked s n).isFinite = true := by
  rw [unpacked]
  split <;> rfl

theorem lt_iff (hx : x.isFinite = true) (hy : y.isFinite = true) :
    x < y ↔ grains x < grains y := by
  have hlt : x < y ↔ (parts x).lt (parts y) = true := decide_eq_true_iff
  obtain ⟨s, n, hn, hparts, hgrains⟩ := exists_parts_eq hx
  obtain ⟨t, n', hn', hparts', hgrains'⟩ := exists_parts_eq hy
  rw [hlt, hparts, hparts', hgrains, hgrains', UnpackedFloat.lt, compare_unpacked s t hn.1 hn'.1,
    beq_iff_eq, Option.some.injEq, Int.compare_eq_lt]

theorem le_iff (hx : x.isFinite = true) (hy : y.isFinite = true) :
    x ≤ y ↔ grains x ≤ grains y := by
  have hle : x ≤ y ↔ (parts x).le (parts y) = true := decide_eq_true_iff
  obtain ⟨s, n, hn, hparts, hgrains⟩ := exists_parts_eq hx
  obtain ⟨t, n', hn', hparts', hgrains'⟩ := exists_parts_eq hy
  rw [hle, hparts, hparts', hgrains, hgrains', UnpackedFloat.le, compare_unpacked s t hn.1 hn'.1,
    Option.any_some, Int.isLE_compare]

/-- **The distance of two numbers is their exact distance, rounded**, if it is in range. -/
theorem grains_abs_sub (hx : x.isFinite = true) (hy : y.isFinite = true)
    (h : BinaryFormat.single.doublings
      (BinaryFormat.single.roundGrains (grains x - grains y).natAbs) ≤ 253) :
    (x - y).abs.isFinite = true ∧
      grains (x - y).abs = BinaryFormat.single.roundGrains (grains x - grains y).natAbs := by
  obtain ⟨s, n, hn, hparts, hgrains⟩ := exists_parts_eq hx
  obtain ⟨t, n', hn', hparts', hgrains'⟩ := exists_parts_eq hy
  obtain ⟨r, hsub⟩ := exists_sub_eq s t hn.1 hn'.1
  rw [hgrains, hgrains'] at h ⊢
  have hstorable : IsStorable (BinaryFormat.single.roundGrains
      (s.apply (n : Int) - t.apply (n' : Int)).natAbs) :=
    ⟨BinaryFormat.single.isMagnitude_roundGrains _, h⟩
  -- the difference is stored, and its magnitude is stored again
  have habs : parts (x - y).abs = unpack .binary32 (pack .binary32 (unpack .binary32
      (pack .binary32 (UnpackedFloat.sub .binary32 (parts x) (parts y)))).abs) := rfl
  rw [hparts, hparts', hsub, unpack_pack_unpacked r hstorable, abs_unpacked,
    unpack_pack_unpacked .positive hstorable] at habs
  refine ⟨?_, grains_of_parts_eq hstorable habs⟩
  have hfinite : (x - y).abs.isFinite = (parts (x - y).abs).isFinite := rfl
  simp [hfinite, habs]

end Single

end DeskCalculator
