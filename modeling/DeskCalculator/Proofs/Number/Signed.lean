import DeskCalculator.Proofs.Number.Stored

/-!
# Numbers up to a sign

Arithmetic is symmetric in the sign: the negative of both operands of a sum is the negative of the
sum, and a sign goes through products, quotients, magnitudes and comparisons by the rule of signs.
The one exception is a zero. What cancels is a positive zero whichever way round it is computed, so
the symmetry holds up to the sign of zeros, and for a quotient only if its divisor is not zero.

`Signed s u v` says that `v` is `u` with the sign `s` in front, and leaves the sign of a zero open.
Every operation keeps it, so two computations whose inputs differ in a sign can be followed side by
side. `Double.Alike` is the same relation between doubles.
-/

namespace DeskCalculator

open Float.Model (Format UnpackedFloat)
open Float.Model.UnpackedFloat

/-- The second number is the first one with a sign in front, the sign of a zero aside. -/
inductive Signed (s : Sign) : UnpackedFloat → UnpackedFloat → Prop
  | zero (t t' : Sign) : Signed s (.zero t) (.zero t')
  | finite (t : Sign) (m : Nat) (e : Int) (hm : 0 < m) :
    Signed s (.finite t m e hm) (.finite (s * t) m e hm)
  | infinity (t : Sign) : Signed s (.infinity t) (.infinity (s * t))
  | notANumber : Signed s .notANumber .notANumber

/-! ## The rule of signs -/

section Signs

@[simp] theorem positive_mul (t : Sign) : .positive * t = t := by cases t <;> rfl

@[simp] theorem negative_mul (t : Sign) : .negative * t = -t := by cases t <;> rfl

theorem mul_mul_mul_comm_sign (s s' t t' : Sign) : s * t * (s' * t') = s * s' * (t * t') := by
  cases s <;> cases s' <;> cases t <;> cases t' <;> rfl

theorem div_eq_mul_sign (s t : Sign) : s / t = s * t := by cases s <;> cases t <;> rfl

@[simp] theorem neg_neg_sign (s : Sign) : - -s = s := by cases s <;> rfl

@[simp] theorem mul_neg_sign (s t : Sign) : s * -t = -(s * t) := by cases s <;> cases t <;> rfl

@[simp] theorem beq_mul_sign (s t t' : Sign) : (s * t == s * t') = (t == t') := by
  cases s <;> cases t <;> cases t' <;> rfl

theorem apply_mul_sign (s t : Sign) (n : Int) : (s * t).apply n = s.apply (t.apply n) := by
  cases s <;> cases t <;> simp only [negative_mul, positive_mul] <;> simp [Sign.apply]

theorem apply_add_sign (s : Sign) (n k : Int) : s.apply (n + k) = s.apply n + s.apply k := by
  cases s with
  | negative => exact Int.neg_add
  | positive => rfl

end Signs

variable {s t : Sign} {u u' v v' : UnpackedFloat}

namespace Signed

theorem refl (u : UnpackedFloat) : Signed .positive u u := by
  rcases u with t | _ | t | ⟨t, m, e, hm⟩
  · simpa using infinity (s := .positive) t
  · exact notANumber
  · exact zero t t
  · simpa using finite (s := .positive) t m e hm

theorem symm (h : Signed s u v) : Signed s v u := by
  have hsign : ∀ t, s * (s * t) = t := fun t ↦ by cases s <;> cases t <;> rfl
  rcases h with ⟨t, t'⟩ | ⟨t, m, e, hm⟩ | ⟨t⟩ | _
  · exact zero t' t
  · have h := finite (s := s) (s * t) m e hm
    rwa [hsign] at h
  · have h := infinity (s := s) (s * t)
    rwa [hsign] at h
  · exact notANumber

theorem neg_right (h : Signed s u v) : Signed (-s) u v.neg := by
  have hsign : ∀ t, -(s * t) = -s * t := fun t ↦ by cases s <;> cases t <;> rfl
  rcases h with ⟨t, t'⟩ | ⟨t, m, e, hm⟩ | ⟨t⟩ | _
  · exact zero t (-t')
  · rw [UnpackedFloat.neg, hsign]
    exact finite t m e hm
  · rw [UnpackedFloat.neg, hsign]
    exact infinity t
  · exact notANumber

theorem neg (h : Signed s u v) : Signed s u.neg v.neg := by
  rcases h with ⟨t, t'⟩ | ⟨t, m, e, hm⟩ | ⟨t⟩ | _
  · exact zero (-t) (-t')
  · simpa [UnpackedFloat.neg] using finite (s := s) (-t) m e hm
  · simpa [UnpackedFloat.neg] using infinity (s := s) (-t)
  · exact notANumber

theorem abs (h : Signed s u v) : Signed .positive u.abs v.abs := by
  rcases h with ⟨t, t'⟩ | ⟨t, m, e, hm⟩ | ⟨t⟩ | _ <;> exact refl _

theorem isFinite_eq (h : Signed s u v) : v.isFinite = u.isFinite := by
  rcases h with ⟨t, t'⟩ | ⟨t, m, e, hm⟩ | ⟨t⟩ | _ <;> rfl

theorem stored_finite (s t : Sign) (m : Nat) (e : Int) (hm : 0 < m) :
    Signed s (DeskCalculator.stored (.finite t m e hm))
      (DeskCalculator.stored (.finite (s * t) m e hm)) := by
  cases s with
  | positive => simpa using refl (DeskCalculator.stored (.finite t m e hm))
  | negative =>
    have hneg : UnpackedFloat.finite (.negative * t) m e hm
        = (UnpackedFloat.finite t m e hm).neg := by
      simp [UnpackedFloat.neg]
    rw [hneg, stored_neg]
    exact (refl _).neg_right

theorem stored (h : Signed s u v) : Signed s (stored u) (stored v) := by
  rcases h with ⟨t, t'⟩ | ⟨t, m, e, hm⟩ | ⟨t⟩ | _
  · simpa using zero t t'
  · exact stored_finite s t m e hm
  · simpa using infinity t
  · simpa using notANumber

end Signed

/-! ## Rounding

Only the sign of what is rounded is passed on; where its magnitude is cut does not depend on it. -/

theorem signed_roundWithAccuracy (s t : Sign) (m : Nat) (e : Int) (a : Accuracy) :
    Signed s (roundWithAccuracy .binary64 t m e a) (roundWithAccuracy .binary64 (s * t) m e a) := by
  simp only [roundWithAccuracy]
  split
  · exact .zero t (s * t)
  · exact .finite t _ _ _

theorem normalize_neg (n e : Int) (t : Sign) :
    Signed .negative (UnpackedFloat.normalize .binary64 n e t)
      (UnpackedFloat.normalize .binary64 (-n) e t) := by
  rcases Int.lt_trichotomy n 0 with h | rfl | h
  · have hn : compare n 0 = .lt := Int.compare_eq_lt.mpr h
    have hn' : compare (-n) 0 = .gt := Int.compare_eq_gt.mpr (by omega)
    simp only [UnpackedFloat.normalize, hn, hn']
    exact signed_roundWithAccuracy .negative .negative _ _ _
  · exact .zero t t
  · have hn : compare n 0 = .gt := Int.compare_eq_gt.mpr h
    have hn' : compare (-n) 0 = .lt := Int.compare_eq_lt.mpr (by omega)
    simp only [UnpackedFloat.normalize, hn, hn', Int.neg_neg]
    exact signed_roundWithAccuracy .negative .positive _ _ _

theorem signed_normalize (s : Sign) (n e : Int) (t : Sign) :
    Signed s (UnpackedFloat.normalize .binary64 n e t)
      (UnpackedFloat.normalize .binary64 (s.apply n) e t) := by
  cases s with
  | positive => exact .refl _
  | negative => exact normalize_neg n e t

/-! ## Arithmetic -/

namespace Unpacked

theorem add_comm (u v : UnpackedFloat) : add .binary64 u v = add .binary64 v u := by
  rcases u with t | _ | t | ⟨t, m, e, hm⟩
  · rcases v with t' | _ | t' | ⟨t', m', e', hm'⟩
    · cases t <;> cases t' <;> rfl
    · rfl
    · rfl
    · rfl
  · rcases v with t' | _ | t' | ⟨t', m', e', hm'⟩ <;> rfl
  · rcases v with t' | _ | t' | ⟨t', m', e', hm'⟩
    · rfl
    · rfl
    · cases t <;> cases t' <;> rfl
    · rfl
  · rcases v with t' | _ | t' | ⟨t', m', e', hm'⟩
    · rfl
    · rfl
    · rfl
    · simp only [add, Int.add_comm, Int.min_comm e]

theorem sub_eq_add_neg (u v : UnpackedFloat) : sub .binary64 u v = add .binary64 u v.neg := by
  have happly : ∀ (t : Sign) (n : Int), (-t).apply n = -t.apply n := by
    intro t n
    cases t with
    | negative => exact (Int.neg_neg n).symm
    | positive => rfl
  rcases u with t | _ | t | ⟨t, m, e, hm⟩ <;> rcases v with t' | _ | t' | ⟨t', m', e', hm'⟩ <;>
    simp only [sub, add, UnpackedFloat.neg, happly, Int.sub_eq_add_neg]

end Unpacked

namespace Signed

/-- A sign goes through a sum if both terms have it. -/
theorem add (hu : Signed s u u') (hv : Signed s v v') :
    Signed s (add .binary64 u v) (add .binary64 u' v') := by
  rcases hu with ⟨t, t'⟩ | ⟨t, m, e, hm⟩ | ⟨t⟩ | _
  · rcases hv with ⟨r, r'⟩ | ⟨r, m, e, hm⟩ | ⟨r⟩ | _
    · simp only [UnpackedFloat.add]
      split <;> split <;> exact zero _ _
    · exact finite r m e hm
    · exact infinity r
    · exact notANumber
  · rcases hv with ⟨r, r'⟩ | ⟨r, m', e', hm'⟩ | ⟨r⟩ | _
    · exact finite t m e hm
    · simp only [UnpackedFloat.add, apply_mul_sign, ← apply_add_sign]
      exact signed_normalize s _ _ _
    · exact infinity r
    · exact notANumber
  · rcases hv with ⟨r, r'⟩ | ⟨r, m, e, hm⟩ | ⟨r⟩ | _
    · exact infinity t
    · exact infinity t
    · simp only [UnpackedFloat.add, beq_mul_sign]
      split
      · exact infinity t
      · exact notANumber
    · exact notANumber
  · exact notANumber

theorem sub (hu : Signed s u u') (hv : Signed s v v') :
    Signed s (sub .binary64 u v) (sub .binary64 u' v') := by
  rw [Unpacked.sub_eq_add_neg, Unpacked.sub_eq_add_neg]
  exact hu.add hv.neg

/-- If only the first term has the sign, a sum becomes a difference. -/
theorem add_sub (hu : Signed s u u') (hv : Signed (-s) v v') :
    Signed s (UnpackedFloat.add .binary64 u v) (UnpackedFloat.sub .binary64 u' v') := by
  have hneg : Signed s v v'.neg := by simpa using hv.neg_right
  rw [Unpacked.sub_eq_add_neg]
  exact hu.add hneg

theorem sub_add (hu : Signed s u u') (hv : Signed (-s) v v') :
    Signed s (UnpackedFloat.sub .binary64 u v) (UnpackedFloat.add .binary64 u' v') := by
  have hneg : Signed s v.neg v' := by simpa using hv.symm.neg_right.symm
  rw [Unpacked.sub_eq_add_neg]
  exact hu.add hneg

theorem sub_comm (u v : UnpackedFloat) :
    Signed .negative (UnpackedFloat.sub .binary64 u v) (UnpackedFloat.sub .binary64 v u) := by
  rw [Unpacked.sub_eq_add_neg u v, Unpacked.add_comm, Unpacked.sub_eq_add_neg v u]
  exact (refl v).neg_right.symm.add (refl u).neg_right

theorem mul (hu : Signed s u u') (hv : Signed t v v') :
    Signed (s * t) (mul .binary64 u v) (mul .binary64 u' v') := by
  rcases hu with ⟨q, q'⟩ | ⟨q, m, e, hm⟩ | ⟨q⟩ | _
  · rcases hv with ⟨r, r'⟩ | ⟨r, m', e', hm'⟩ | ⟨r⟩ | _
    · exact zero _ _
    · exact zero _ _
    · exact notANumber
    · exact notANumber
  · rcases hv with ⟨r, r'⟩ | ⟨r, m', e', hm'⟩ | ⟨r⟩ | _ <;>
      simp only [UnpackedFloat.mul, mul_mul_mul_comm_sign]
    · exact zero _ _
    · exact signed_roundWithAccuracy _ _ _ _ _
    · exact infinity _
    · exact notANumber
  · rcases hv with ⟨r, r'⟩ | ⟨r, m', e', hm'⟩ | ⟨r⟩ | _ <;>
      simp only [UnpackedFloat.mul, mul_mul_mul_comm_sign]
    · exact notANumber
    · exact infinity _
    · exact infinity _
    · exact notANumber
  · exact notANumber

/-- The signs of a quotient's two numbers are multiplied; a zero as the divisor is the one place
where the sign of a zero shows. -/
theorem div (hu : Signed s u u') (hv : Signed t v v') (hzero : ∀ r, v ≠ .zero r) :
    Signed (s * t) (div .binary64 u v) (div .binary64 u' v') := by
  have hsign : ∀ q r : Sign, s * q / (t * r) = s * t * (q / r) := by
    intro q r
    rw [div_eq_mul_sign, div_eq_mul_sign, mul_mul_mul_comm_sign]
  rcases hv with ⟨r, r'⟩ | ⟨r, m', e', hm'⟩ | ⟨r⟩ | _
  · exact absurd rfl (hzero r)
  · rcases hu with ⟨q, q'⟩ | ⟨q, m, e, hm⟩ | ⟨q⟩ | _ <;> simp only [UnpackedFloat.div, hsign]
    · exact zero _ _
    · exact signed_roundWithAccuracy _ _ _ _ _
    · exact infinity _
    · exact notANumber
  · rcases hu with ⟨q, q'⟩ | ⟨q, m, e, hm⟩ | ⟨q⟩ | _
    · exact zero _ _
    · exact zero _ _
    · exact notANumber
    · exact notANumber
  · rcases hu with ⟨q, q'⟩ | ⟨q, m, e, hm⟩ | ⟨q⟩ | _ <;> exact notANumber

/-- Numbers that are alike without a sign are the same, or two zeros. -/
theorem eq_or_exists_zero (h : Signed .positive u v) :
    v = u ∨ ∃ t t', u = .zero t ∧ v = .zero t' := by
  rcases h with ⟨t, t'⟩ | ⟨t, m, e, hm⟩ | ⟨t⟩ | _
  · exact .inr ⟨t, t', rfl, rfl⟩
  · exact .inl (by simp)
  · exact .inl (by simp)
  · exact .inl rfl

theorem sqrt (h : Signed .positive u v) :
    Signed .positive (sqrt .binary64 u) (sqrt .binary64 v) := by
  rcases h.eq_or_exists_zero with rfl | ⟨t, t', rfl, rfl⟩
  · exact refl _
  · exact zero t t'

theorem compare_eq (hu : Signed .positive u u') (hv : Signed .positive v v') :
    u'.compare v' = u.compare v := by
  have hleft : ∀ (t t' : Sign) (w : UnpackedFloat),
      (UnpackedFloat.zero t').compare w = (UnpackedFloat.zero t).compare w := by
    intro t t' w
    rcases w with (_ | _) | _ | r | ⟨_ | _, m, e, hm⟩ <;> rfl
  have hright : ∀ (t t' : Sign) (w : UnpackedFloat),
      w.compare (.zero t') = w.compare (.zero t) := by
    intro t t' w
    rcases w with (_ | _) | _ | r | ⟨_ | _, m, e, hm⟩ <;> rfl
  rcases hu.eq_or_exists_zero with rfl | ⟨t, t', rfl, rfl⟩
  · rcases hv.eq_or_exists_zero with rfl | ⟨r, r', rfl, rfl⟩
    · rfl
    · exact hright r r' _
  · rcases hv.eq_or_exists_zero with rfl | ⟨r, r', rfl, rfl⟩
    · exact hleft t t' _
    · exact (hleft t t' _).trans (hright r r' _)

end Signed

/-! ## Doubles -/

namespace Double

/-- The second double is the first one with a sign in front, the sign of a zero aside. -/
def Alike (s : Sign) (x y : Float) : Prop := Signed s (parts x) (parts y)

/-- The two doubles are the same number, whatever sign a zero has, or both are no number. -/
def Same (x y : Float) : Prop := (x == y) = true ∨ x.isNaN = true ∧ y.isNaN = true

namespace Alike

variable {x x' y y' : Float}

theorem refl (x : Float) : Alike .positive x x := Signed.refl _

theorem symm (h : Alike s x y) : Alike s y x := Signed.symm h

theorem neg_right (h : Alike s x y) : Alike (-s) x (-y) := by
  rw [Alike, parts_neg]
  exact Signed.neg_right h

theorem same (h : Alike .positive x y) : Same x y := by
  have hbeq : (x == y) = (parts x).beq (parts y) := rfl
  have hnan : ∀ z : Float, z.isNaN = (parts z).isNaN := fun _ ↦ rfl
  rw [Alike] at h
  rw [Same, hbeq, hnan, hnan]
  generalize parts x = u at h ⊢
  generalize parts y = v at h ⊢
  rcases h with ⟨t, t'⟩ | ⟨t, m, e, hm⟩ | ⟨t⟩ | _
  · exact .inl rfl
  · left
    cases t <;> simp [UnpackedFloat.beq, UnpackedFloat.compare]
  · left
    cases t <;> rfl
  · exact .inr ⟨rfl, rfl⟩

theorem same_neg (h : Alike .negative x y) : Same y (-x) := (neg_right h.symm).same

theorem sub_comm (x y : Float) : Alike .negative (x - y) (y - x) := (Signed.sub_comm _ _).stored

theorem neg (h : Alike s x y) : Alike s (-x) (-y) := by
  rw [Alike, parts_neg, parts_neg]
  exact Signed.neg h

theorem abs (h : Alike s x y) : Alike .positive x.abs y.abs := by
  rw [Alike, parts_abs, parts_abs]
  exact Signed.abs h

theorem add (hx : Alike s x x') (hy : Alike s y y') : Alike s (x + y) (x' + y') :=
  (Signed.add hx hy).stored

theorem sub (hx : Alike s x x') (hy : Alike s y y') : Alike s (x - y) (x' - y') :=
  (Signed.sub hx hy).stored

theorem add_sub (hx : Alike s x x') (hy : Alike (-s) y y') : Alike s (x + y) (x' - y') :=
  (Signed.add_sub hx hy).stored

theorem sub_add (hx : Alike s x x') (hy : Alike (-s) y y') : Alike s (x - y) (x' + y') :=
  (Signed.sub_add hx hy).stored

theorem mul (hx : Alike s x x') (hy : Alike t y y') : Alike (s * t) (x * y) (x' * y') :=
  (Signed.mul hx hy).stored

theorem div (hx : Alike s x x') (hy : Alike t y y') (hzero : ∀ r, parts y ≠ .zero r) :
    Alike (s * t) (x / y) (x' / y') :=
  (Signed.div hx hy hzero).stored

theorem sqrt (h : Alike .positive x y) : Alike .positive x.sqrt y.sqrt :=
  (Signed.sqrt h).stored

theorem isFinite_eq (h : Alike s x y) : y.isFinite = x.isFinite :=
  Signed.isFinite_eq h

theorem le_iff (hx : Alike .positive x x') (hy : Alike .positive y y') : x' ≤ y' ↔ x ≤ y := by
  have hle : ∀ z w : Float, z ≤ w ↔ (parts z).le (parts w) = true := fun z w ↦ decide_eq_true_iff
  rw [hle, hle, UnpackedFloat.le, UnpackedFloat.le, Signed.compare_eq hx hy]

theorem lt_iff (hx : Alike .positive x x') (hy : Alike .positive y y') : x' < y' ↔ x < y := by
  have hlt : ∀ z w : Float, z < w ↔ (parts z).lt (parts w) = true := fun z w ↦ decide_eq_true_iff
  rw [hlt, hlt, UnpackedFloat.lt, UnpackedFloat.lt, Signed.compare_eq hx hy]

end Alike

end Double

end DeskCalculator
