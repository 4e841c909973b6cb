import DeskCalculator.Proofs.Number.Packed

/-!
# Stored results

A result of arithmetic is a sign, a mantissa and an exponent of any size, or a zero, an infinity, or
no number. Stored as a double it keeps its value if its mantissa has fifty-three bits and its
exponent is in range, and it becomes an infinity if its exponent is too large.

Magnitudes are bounded by exponents. *At most* `t` is a zero or a number with an exponent up to `t`;
*at least* `t` is a number with a full mantissa and an exponent from `t` on, or an infinity. Storing
keeps both bounds.
-/

namespace DeskCalculator

open Float.Model (Format UnpackedFloat)
open Float.Model.UnpackedFloat

/-! ## Bounds -/

/-- A mantissa with all its bits. -/
def IsNormal (m : Nat) : Prop := 2 ^ 52 ≤ m ∧ m < 2 ^ 53

theorem IsNormal.log2_eq {m : Nat} (h : IsNormal m) : m.log2 = 52 :=
  (Nat.log2_eq_iff (Nat.ne_of_gt (Nat.lt_of_lt_of_le (by decide) h.1))).mpr h

/-- A zero, or a number of at most fifty-three bits with an exponent up to `t`. -/
def AtMost (t : Int) : UnpackedFloat → Prop
  | .zero _ => True
  | .finite _ m e _ => m < 2 ^ 53 ∧ e ≤ t
  | .infinity _ | .notANumber => False

/-- A normal number with an exponent from `t` on, or an infinity. -/
def AtLeast (t : Int) : UnpackedFloat → Prop
  | .finite _ m e _ => IsNormal m ∧ t ≤ e
  | .infinity _ => True
  | .zero _ | .notANumber => False

variable {u : UnpackedFloat} {t t' : Int}

theorem AtMost.mono (h : AtMost t u) (ht : t ≤ t') : AtMost t' u := by
  cases u with
  | finite s m e hm => exact ⟨h.1, Int.le_trans h.2 ht⟩
  | _ => exact h

theorem AtLeast.mono (h : AtLeast t u) (ht : t' ≤ t) : AtLeast t' u := by
  cases u with
  | finite s m e hm => exact ⟨h.1, Int.le_trans ht h.2⟩
  | _ => exact h

@[simp] theorem atMost_neg : AtMost t u.neg ↔ AtMost t u := by
  cases u <;> rfl

@[simp] theorem atLeast_abs : AtLeast t u.abs ↔ AtLeast t u := by
  cases u <;> rfl

theorem AtMost.isFinite (h : AtMost t u) : u.isFinite = true := by
  cases u with
  | infinity s => exact h.elim
  | notANumber => exact h.elim
  | _ => rfl

theorem eq_zero_or_eq_finite (h : u.isFinite = true) :
    (∃ s, u = .zero s) ∨ ∃ s m e hm, u = .finite s m e hm := by
  cases u with
  | zero s => exact .inl ⟨s, rfl⟩
  | finite s m e hm => exact .inr ⟨s, m, e, hm, rfl⟩
  | _ => exact absurd h Bool.false_ne_true

/-! ## Storing -/

/-- What is left of a result once it is stored. -/
def stored (u : UnpackedFloat) : UnpackedFloat := unpack .binary64 (pack .binary64 u)

@[simp] theorem stored_notANumber : stored .notANumber = .notANumber := unpack_packedNaN

@[simp] theorem stored_infinity (s : Sign) : stored (.infinity s) = .infinity s := by
  cases s <;> rfl

@[simp] theorem stored_zero (s : Sign) : stored (.zero s) = .zero s := unpack_packedZero

/-- The leading bit of a normal number is not in its pattern. -/
theorem toNat_leadingBit_append {w : Nat} (m : BitVec w) : (1#1 ++ m).toNat = 2 ^ w + m.toNat := by
  have hbit : (1#1).toNat <<< w = 2 ^ w := Nat.one_shiftLeft w
  rw [BitVec.toNat_append, ← Nat.shiftLeft_add_eq_or_of_lt m.isLt, hbit]

/-- An exponent field that is neither zero nor all ones belongs to a normal number. -/
theorem unpack_packComponents (spec : Format) (s : Sign) {k : Nat} (hk : 0 < k)
    (hk' : k + 1 < 2 ^ spec.exponentBits) (m : BitVec spec.mantissaBitsWithoutImplicit) :
    unpack spec (packComponents spec s (BitVec.ofNat spec.exponentBits k) m)
      = .finite s (2 ^ spec.mantissaBitsWithoutImplicit + m.toNat)
        (k - (spec.exponentBias + spec.mantissaBitsWithoutImplicit))
        (Nat.add_pos_left (Nat.two_pow_pos _) _) := by
  have hfield : (BitVec.ofNat spec.exponentBits k).toNat = k := Nat.mod_eq_of_lt (by omega)
  have hones : BitVec.ofNat spec.exponentBits k ≠ -BitVec.ofNat spec.exponentBits 1 := by
    intro h
    have h' := congrArg BitVec.toNat h
    rw [hfield, BitVec.neg_one_eq_allOnes, BitVec.toNat_allOnes] at h'
    omega
  have hzero : BitVec.ofNat spec.exponentBits k ≠ BitVec.ofNat spec.exponentBits 0 := by
    intro h
    have h' : k = 0 := hfield ▸ congrArg BitVec.toNat h
    omega
  simp only [unpack, unpackExponent_packComponents, unpackMantissa_packComponents,
    unpackSign_packComponents, Sign.ofBitVec_toBitVec, if_neg hones, if_neg hzero, hfield,
    toNat_leadingBit_append]

theorem unpack_packComponents_double (s : Sign) {k : Nat} (hk : 0 < k) (hk' : k < 2047)
    (m : BitVec 52) : unpack .binary64 (packComponents .binary64 s (BitVec.ofNat 11 k) m)
      = .finite s (2 ^ 52 + m.toNat) (k - 1075) (by omega) :=
  unpack_packComponents .binary64 s hk (Nat.succ_lt_succ hk') m

theorem atMost_unpack_packComponents (s : Sign) (m : BitVec 52) :
    AtMost (-1074) (unpack .binary64 (packComponents .binary64 s 0#11 m)) := by
  have hexp : ((0#11).toNat : Int) - (Format.binary64.exponentBias + (52 : Nat)) + 1 = -1074 := rfl
  have hones : (0#11 : BitVec 11) ≠ -1#11 := by decide
  simp only [unpack, unpackExponent_packComponents, unpackMantissa_packComponents,
    unpackSign_packComponents, Sign.ofBitVec_toBitVec, if_neg hones, if_pos, hexp]
  split
  · exact trivial
  · exact ⟨Nat.lt_trans m.isLt (by decide), Int.le_refl _⟩

theorem toNat_biased (e : Int) :
    (e + (Format.binary64.exponentBias : Nat) + (52 : Nat)).toNat = (e + 1075).toNat := by
  have hbias : (Format.binary64.exponentBias : Int) = 1023 := rfl
  rw [hbias, Int.add_assoc]
  rfl

/-- Too large a number becomes an infinity. -/
theorem stored_of_large (s : Sign) {m : Nat} {e : Int} (hm : 0 < m) (he : 972 ≤ e) :
    stored (.finite s m e hm) = .infinity s := by
  have h : 2 ^ 11 ≤ (e + 1075).toNat + 1 := by omega
  have hpack : pack .binary64 (.finite s m e hm) = packedInfinity .binary64 s := by
    simp only [pack, toNat_biased, if_pos h]
  rw [stored, hpack]
  exact stored_infinity s

/-- A normal number in range keeps its value. -/
theorem stored_of_normal (s : Sign) {m : Nat} {e : Int} (hm : 0 < m) (hnormal : IsNormal m)
    (he : -1074 ≤ e) (he' : e ≤ 971) : stored (.finite s m e hm) = .finite s m e hm := by
  have hlarge : ¬ 2 ^ 11 ≤ (e + 1075).toNat + 1 := by omega
  have hlog : m.log2 + 1 = Format.binary64.mantissaBits := by
    rw [hnormal.log2_eq]
    rfl
  have hpack : pack .binary64 (.finite s m e hm)
      = packComponents .binary64 s (BitVec.ofNat 11 (e + 1075).toNat) (BitVec.ofNat 52 m) := by
    simp only [pack, toNat_biased, if_neg hlarge, if_pos hlog]
  have hmant : 2 ^ 52 + (BitVec.ofNat 52 m).toNat = m := by
    have := hnormal.1
    have := hnormal.2
    rw [BitVec.toNat_ofNat]
    omega
  have hexp : (((e + 1075).toNat : Nat) : Int) - 1075 = e := by omega
  rw [stored, hpack, unpack_packComponents_double s (by omega) (by omega)]
  simp only [hmant, hexp]

theorem AtMost.stored (h : AtMost t u) (ht : -1074 ≤ t) (ht' : t ≤ 971) : AtMost t (stored u) := by
  cases u with
  | zero s => simpa using h
  | infinity s => exact h.elim
  | notANumber => exact h.elim
  | finite s m e hm =>
    have het := h.2
    have hlarge : ¬ 2 ^ 11 ≤ (e + 1075).toNat + 1 := by omega
    have hsmall := fun v ↦ (atMost_unpack_packComponents s v).mono ht
    rw [DeskCalculator.stored]
    -- a mantissa with all its bits has an exponent field, a shorter one the field of zero
    by_cases hlog : m.log2 + 1 = Format.binary64.mantissaBits
    · simp only [pack, toNat_biased, if_neg hlarge, if_pos hlog]
      by_cases hk : (e + 1075).toNat = 0
      · rw [hk]
        exact hsmall _
      · rw [unpack_packComponents_double s (by omega) (by omega)]
        have hmant := (BitVec.ofNat 52 m).isLt
        exact ⟨by omega, by omega⟩
    · simp only [pack, toNat_biased, if_neg hlarge, if_neg hlog]
      exact hsmall _

theorem AtLeast.stored (h : AtLeast t u) (ht : -1074 ≤ t) : AtLeast t (stored u) := by
  cases u with
  | zero s => exact h.elim
  | infinity s => simpa using h
  | notANumber => exact h.elim
  | finite s m e hm =>
    by_cases he : e ≤ 971
    · rwa [stored_of_normal s hm h.1 (Int.le_trans ht h.2) he]
    · rw [stored_of_large s hm (by omega)]
      exact trivial

theorem AtLeast.isFinite_stored (h : AtLeast t u) (ht : 972 ≤ t) :
    (DeskCalculator.stored u).isFinite = false := by
  cases u with
  | zero s => exact h.elim
  | infinity s =>
    rw [stored_infinity]
    rfl
  | notANumber => exact h.elim
  | finite s m e hm =>
    rw [stored_of_large s hm (Int.le_trans ht h.2)]
    rfl

theorem isFinite_of_stored (h : (stored u).isFinite = true) : u.isFinite = true := by
  cases u with
  | infinity s => simpa using h
  | notANumber => simpa using h
  | _ => rfl

/-! ## Signs -/

theorem unpack_packComponents_neg (s : Sign) (e : BitVec 11) (m : BitVec 52) :
    unpack .binary64 (packComponents .binary64 (-s) e m)
      = (unpack .binary64 (packComponents .binary64 s e m)).neg := by
  have hsign : (-s).toBitVec ≠ s.toBitVec := by cases s <;> decide
  refine Packed.unpack_eq_neg ?_ ?_ ?_
  · rw [unpackExponent_packComponents, unpackExponent_packComponents]
  · rw [unpackMantissa_packComponents, unpackMantissa_packComponents]
  · rwa [unpackSign_packComponents, unpackSign_packComponents]

@[simp] theorem stored_neg (u : UnpackedFloat) : stored u.neg = (stored u).neg := by
  cases u with
  | notANumber => simp [UnpackedFloat.neg]
  | infinity s => simp [UnpackedFloat.neg]
  | zero s => simp [UnpackedFloat.neg]
  | finite s m e hm =>
    simp only [stored, UnpackedFloat.neg, pack]
    split
    · exact unpack_packComponents_neg s _ _
    · split <;> exact unpack_packComponents_neg s _ _

/-! ## Parts of a double -/

theorem unpack_eq_finite {b : Packed.Pattern} {s : Sign} {m : Nat} {e : Int} {hm : 0 < m}
    (h : unpack .binary64 b = .finite s m e hm) :
    -1074 ≤ e ∧ e ≤ 971 ∧ m < 2 ^ 53 ∧ (IsNormal m ∨ e = -1074) := by
  have hbias : (Format.binary64.exponentBias : Int) + (52 : Nat) = 1075 := rfl
  have hmant : (unpackMantissa b).toNat < 2 ^ 52 := (unpackMantissa b).isLt
  simp only [unpack, hbias] at h
  split at h
  · split at h <;> cases h
  · next hones =>
    have hmax : (unpackExponent b).toNat ≠ 2047 := fun h ↦ hones (BitVec.eq_of_toNat_eq h)
    have hfield : (unpackExponent b).toNat < 2 ^ 11 := (unpackExponent b).isLt
    split at h
    · next hzero =>
      split at h
      · cases h
      · cases h
        have he : ((unpackExponent b).toNat : Int) - 1075 + 1 = -1074 := by
          rw [hzero]
          rfl
        exact ⟨he.ge, by omega, Nat.lt_trans hmant (by decide), .inr he⟩
    · next hzero =>
      have hexp : (unpackExponent b).toNat ≠ 0 := fun h ↦ hzero (BitVec.eq_of_toNat_eq h)
      cases h
      have hmantissa : (1#1 ++ unpackMantissa b).toNat = 2 ^ 52 + (unpackMantissa b).toNat :=
        toNat_leadingBit_append _
      rw [hmantissa]
      exact ⟨by omega, by omega, by omega, .inl ⟨by omega, by omega⟩⟩

namespace Double

/-- What a double stands for. -/
def parts (x : Float) : UnpackedFloat := x.toModel.unpack

theorem parts_mul (x y : Float) : parts (x * y) = stored (.mul .binary64 (parts x) (parts y)) := rfl

theorem parts_div (x y : Float) : parts (x / y) = stored (.div .binary64 (parts x) (parts y)) := rfl

theorem parts_sqrt (x : Float) : parts x.sqrt = stored (.sqrt .binary64 (parts x)) := rfl

theorem isFinite_eq (x : Float) : x.isFinite = (parts x).isFinite := rfl

@[simp] theorem stored_parts (x : Float) : stored (parts x) = parts x := by
  rw [stored, parts, Float.Model.unpack, pack_unpack_of_valid x.toModel.valid]

@[simp] theorem parts_neg (x : Float) : parts (-x) = (parts x).neg := by
  have h : parts (-x) = stored (parts x).neg := rfl
  simp [h]

@[simp] theorem parts_abs (x : Float) : parts x.abs = (parts x).abs := by
  have hcases : ∀ u : UnpackedFloat, u.abs = u ∨ u.abs = u.neg := by
    intro u
    cases u with
    | notANumber => exact .inl rfl
    | infinity s => cases s; exacts [.inr rfl, .inl rfl]
    | zero s => cases s; exacts [.inr rfl, .inl rfl]
    | finite s m e hm => cases s; exacts [.inr rfl, .inl rfl]
  -- a magnitude is stored once more, which changes nothing
  have h : parts x.abs = stored (parts x).abs := rfl
  rcases hcases (parts x) with habs | habs
  · simp [h, habs]
  · simp [h, habs]

/-- The exponent of a double is in range, and its mantissa has all its bits unless the exponent is
the least one. -/
theorem parts_eq_finite {x : Float} {s : Sign} {m : Nat} {e : Int} {hm : 0 < m}
    (h : parts x = .finite s m e hm) :
    -1074 ≤ e ∧ e ≤ 971 ∧ m < 2 ^ 53 ∧ (IsNormal m ∨ e = -1074) :=
  unpack_eq_finite h

end Double

end DeskCalculator
