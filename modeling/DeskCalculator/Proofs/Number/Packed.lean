import Mathlib
import DeskCalculator.Number.Double

/-!
# The bits of a double

A double is a pattern of sixty-four bits, and arithmetic works on what the pattern stands for: a
signed zero, a sign with a mantissa and an exponent, an infinity, or no number. The code of a
magnitude is the pattern without its sign, so codes order what patterns stand for: the finite
magnitudes first, and a sign is put in front of a code without changing anything else.
-/

namespace DeskCalculator

open Float.Model (Format UnpackedFloat)
open Float.Model.UnpackedFloat

namespace Packed

/-- Patterns of a double. -/
abbrev Pattern := BitVec Format.binary64.numBits

/-! ## The three fields -/

theorem toNat_lt (b : Pattern) : b.toNat < 2 ^ 64 := b.isLt

theorem toNat_unpackMantissa (b : Pattern) : (unpackMantissa b).toNat = b.toNat % 2 ^ 52 := by
  simp [unpackMantissa]

theorem toNat_unpackExponent (b : Pattern) :
    (unpackExponent b).toNat = b.toNat / 2 ^ 52 % 2 ^ 11 := by
  simp [unpackExponent, Nat.shiftRight_eq_div_pow]

theorem toNat_unpackSign (b : Pattern) : (unpackSign b).toNat = b.toNat / 2 ^ 63 := by
  have hb := toNat_lt b
  have h : (unpackSign b).toNat = b.toNat / 2 ^ 63 % 2 := by
    simp [unpackSign, Nat.shiftRight_eq_div_pow]
  omega

theorem isFinite_unpack (b : Pattern) :
    (unpack .binary64 b).isFinite = true ↔ unpackExponent b ≠ -1#11 := by
  simp only [unpack]
  split
  · next hexp =>
    split <;> exact iff_of_false Bool.false_ne_true fun h ↦ h hexp
  · next hexp =>
    split
    · split <;> exact iff_of_true rfl hexp
    · exact iff_of_true rfl hexp

/-- Up to infinity, no pattern has a mantissa beside an exponent of all ones. -/
theorem valid_of_le {b : Pattern} (h : b.toNat % 2 ^ 63 ≤ 2047 * 2 ^ 52) :
    Format.binary64.Valid b := by
  refine ⟨fun hexp hmant ↦ absurd (BitVec.eq_of_toNat_eq ?_) hmant⟩
  have hfield := congrArg BitVec.toNat hexp
  have hmax : (-1#11).toNat = 2047 := rfl
  rw [toNat_unpackExponent, hmax] at hfield
  rw [toNat_unpackMantissa]
  change _ = 0
  omega

theorem unpack_eq_neg {b b' : Pattern} (hexp : unpackExponent b' = unpackExponent b)
    (hmant : unpackMantissa b' = unpackMantissa b) (hsign : unpackSign b' ≠ unpackSign b) :
    unpack .binary64 b' = (unpack .binary64 b).neg := by
  have hsign' : Sign.ofBitVec (unpackSign b') = -Sign.ofBitVec (unpackSign b) := by
    have hcases : ∀ v v' : BitVec 1, v' ≠ v → v = 0#1 ∧ v' = 1#1 ∨ v = 1#1 ∧ v' = 0#1 := by decide
    rcases hcases _ _ hsign with ⟨h, h'⟩ | ⟨h, h'⟩ <;> rw [h, h'] <;> rfl
  simp only [unpack, hexp, hmant, hsign']
  split
  · split <;> rfl
  · split
    · split <;> rfl
    · rfl

end Packed

/-! ## Codes -/

namespace Double

open Packed

/-- A double is its sign and its code. -/
@[simp] theorem ofCode_code (x : Float) : ofCode (isNegative x) (code x) = x := by
  have hbits : x.toBits.toNat < 2 ^ 64 := x.toBits.toNat_lt
  have h : (if isNegative x then Nat.pow 2 63 + code x else code x) = x.toBits.toNat := by
    simp only [isNegative, code, Nat.pow_eq, decide_eq_true_eq]
    split <;> omega
  rw [ofCode, h, UInt64.ofNat_toNat, Float.ofBits_toBits]

theorem infinity_double : BinaryFormat.double.infinity = 2047 * 2 ^ 52 := by decide

/-- The finite magnitudes have the codes below that of infinity. -/
theorem isFinite_iff (x : Float) :
    x.isFinite = true ↔ code x < BinaryFormat.double.infinity := by
  have hbits : x.toBits.toBitVec.toNat < 2 ^ 64 := x.toBits.toNat_lt
  have hexp := toNat_unpackExponent x.toBits.toBitVec
  have hcode : code x = x.toBits.toBitVec.toNat % 2 ^ 63 := rfl
  have hmax : (-1#11).toNat = 2047 := rfl
  have hfinite : x.isFinite = (unpack .binary64 x.toBits.toBitVec).isFinite := rfl
  rw [hfinite, isFinite_unpack, hcode, infinity_double, ne_eq, ← BitVec.toNat_inj, hexp, hmax]
  omega

theorem toNat_toBits_ofCode (negative : Bool) {c : Nat} (hc : c ≤ BinaryFormat.double.infinity) :
    (ofCode negative c).toBits.toNat = if negative then 2 ^ 63 + c else c := by
  rw [infinity_double] at hc
  have hlt : (if negative then 2 ^ 63 + c else c) < 2 ^ 64 := by
    split <;> omega
  let b : Pattern := BitVec.ofNat 64 (if negative then 2 ^ 63 + c else c)
  have hb : b.toNat = if negative then 2 ^ 63 + c else c := Nat.mod_eq_of_lt hlt
  have hvalid : Format.binary64.Valid b := by
    refine valid_of_le ?_
    rw [hb]
    split <;> omega
  have hbits : (ofCode negative c).toBits = ⟨pack .binary64 (unpack .binary64 b)⟩ := rfl
  rw [hbits, pack_unpack_of_valid hvalid]
  exact hb

theorem code_ofCode (negative : Bool) {c : Nat} (hc : c ≤ BinaryFormat.double.infinity) :
    code (ofCode negative c) = c := by
  rw [code, toNat_toBits_ofCode negative hc]
  rw [infinity_double] at hc
  simp only [Nat.pow_eq]
  split <;> omega

theorem isNegative_ofCode (negative : Bool) {c : Nat} (hc : c ≤ BinaryFormat.double.infinity) :
    isNegative (ofCode negative c) = negative := by
  rw [isNegative, toNat_toBits_ofCode negative hc]
  rw [infinity_double] at hc
  cases negative <;> simp only [Nat.pow_eq, Bool.false_eq_true, if_true, if_false,
    decide_eq_true_eq, decide_eq_false_iff_not] <;> omega

theorem isFinite_ofCode (negative : Bool) {c : Nat} (hc : c < BinaryFormat.double.infinity) :
    (ofCode negative c).isFinite = true := by
  rwa [isFinite_iff, code_ofCode negative (Nat.le_of_lt hc)]

theorem not_isNaN_of_isFinite {x : Float} (h : x.isFinite = true) : x.isNaN = false := by
  change x.toModel.unpack.isFinite = true at h
  change x.toModel.unpack.isNaN = false
  cases hu : x.toModel.unpack with
  | notANumber =>
    rw [hu] at h
    cases h
  | _ => rfl

theorem neg_ofCode {c : Nat} (hc : c ≤ BinaryFormat.double.infinity) :
    -ofCode false c = ofCode true c := by
  rw [infinity_double] at hc
  let b : Pattern := BitVec.ofNat 64 c
  let b' : Pattern := BitVec.ofNat 64 (2 ^ 63 + c)
  have hb : b.toNat = c := by
    change c % 2 ^ 64 = c
    omega
  have hb' : b'.toNat = 2 ^ 63 + c := by
    change (2 ^ 63 + c) % 2 ^ 64 = 2 ^ 63 + c
    omega
  have hvalid : Format.binary64.Valid b := valid_of_le (by omega)
  have hneg : unpack .binary64 b' = (unpack .binary64 b).neg := by
    refine unpack_eq_neg (BitVec.eq_of_toNat_eq ?_) (BitVec.eq_of_toNat_eq ?_) fun h ↦ ?_
    · rw [toNat_unpackExponent, toNat_unpackExponent, hb, hb']
      omega
    · rw [toNat_unpackMantissa, toNat_unpackMantissa, hb, hb']
      omega
    · have h' := congrArg BitVec.toNat h
      rw [toNat_unpackSign, toNat_unpackSign, hb, hb'] at h'
      omega
  have hleft : -ofCode false c
      = .ofModel (.pack (unpack .binary64 (pack .binary64 (unpack .binary64 b))).neg) := rfl
  have hright : ofCode true c = .ofModel (.pack (unpack .binary64 b')) := rfl
  rw [hleft, hright, pack_unpack_of_valid hvalid, hneg]

end Double

end DeskCalculator
