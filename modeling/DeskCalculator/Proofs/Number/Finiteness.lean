import DeskCalculator.Proofs.Number.Magnitude

/-!
# Finite doubles

What is not finite stays so through arithmetic: if a result is finite, so are the operands, except
for a divisor, which may be infinite. In the other direction the bounds of magnitudes decide. A
number with a finite square is far from the end of the range, and its quotient by a number that is
not too small is finite.
-/

namespace DeskCalculator

open Float.Model (UnpackedFloat)
open Float.Model.UnpackedFloat

/-! ## Operands of finite results -/

section Operands

variable {u v : UnpackedFloat}

/-- The difference of two infinities is infinite or no number. -/
@[simp] theorem isFinite_ite_infinity {p : Prop} [Decidable p] (s : Sign) :
    (if p then UnpackedFloat.infinity s else .notANumber).isFinite = false := by
  split <;> rfl

theorem isFinite_of_isFinite_sub (h : (sub .binary64 u v).isFinite = true) :
    u.isFinite = true ∧ v.isFinite = true := by
  cases u <;> cases v <;>
    first
    | exact ⟨rfl, rfl⟩
    | exact absurd h Bool.false_ne_true
    | exact absurd ((isFinite_ite_infinity _).symm.trans h) Bool.false_ne_true

theorem isFinite_of_isFinite_add (h : (add .binary64 u v).isFinite = true) :
    u.isFinite = true ∧ v.isFinite = true := by
  cases u <;> cases v <;>
    first
    | exact ⟨rfl, rfl⟩
    | exact absurd h Bool.false_ne_true
    | exact absurd ((isFinite_ite_infinity _).symm.trans h) Bool.false_ne_true

theorem isFinite_of_isFinite_mul (h : (mul .binary64 u v).isFinite = true) :
    u.isFinite = true ∧ v.isFinite = true := by
  cases u <;> cases v <;>
    first
    | exact ⟨rfl, rfl⟩
    | exact absurd h Bool.false_ne_true

theorem isFinite_of_isFinite_div (h : (div .binary64 u v).isFinite = true) : u.isFinite = true := by
  cases u <;> cases v <;>
    first
    | rfl
    | exact absurd h Bool.false_ne_true

theorem isFinite_of_isFinite_sqrt (h : (sqrt .binary64 u).isFinite = true) : u.isFinite = true := by
  cases u with
  | infinity s => cases s <;> exact absurd h Bool.false_ne_true
  | notANumber => exact absurd h Bool.false_ne_true
  | _ => rfl

end Operands

namespace Double

variable {x y : Float}

theorem isFinite_of_add (h : (x + y).isFinite = true) : x.isFinite = true ∧ y.isFinite = true :=
  isFinite_of_isFinite_add (isFinite_of_stored h)

theorem isFinite_of_sub (h : (x - y).isFinite = true) : x.isFinite = true ∧ y.isFinite = true :=
  isFinite_of_isFinite_sub (isFinite_of_stored h)

theorem isFinite_of_mul (h : (x * y).isFinite = true) : x.isFinite = true ∧ y.isFinite = true :=
  isFinite_of_isFinite_mul (isFinite_of_stored h)

theorem isFinite_of_div (h : (x / y).isFinite = true) : x.isFinite = true :=
  isFinite_of_isFinite_div (isFinite_of_stored h)

theorem isFinite_of_sqrt (h : x.sqrt.isFinite = true) : x.isFinite = true :=
  isFinite_of_isFinite_sqrt (isFinite_of_stored h)

@[simp] theorem isFinite_neg (x : Float) : (-x).isFinite = x.isFinite := by
  rw [isFinite_eq, isFinite_eq, parts_neg]
  cases parts x <;> rfl

@[simp] theorem isFinite_abs (x : Float) : x.abs.isFinite = x.isFinite := by
  rw [isFinite_eq, isFinite_eq, parts_abs]
  cases parts x <;> rfl

/-! ## Finite results -/

/-- A number whose square is finite is below the square root of the largest double. -/
theorem atMost_of_isFinite_mul_self (h : (x * x).isFinite = true) : AtMost 459 (parts x) := by
  have hfinite : (parts x).isFinite = true := (isFinite_of_mul h).1
  rcases eq_zero_or_eq_finite hfinite with ⟨s, hx⟩ | ⟨s, m, e, hm, hx⟩
  · rw [hx]
    exact trivial
  · obtain ⟨hlow, -, hbits, hnormal⟩ := parts_eq_finite hx
    rw [hx]
    refine ⟨hbits, ?_⟩
    -- with a larger exponent the square would be at least the first power of two out of range
    by_contra hlarge
    have hleast : AtLeast 460 (parts x) := by
      rw [hx]
      exact ⟨hnormal.resolve_right (by omega), by omega⟩
    have hsquare := (hleast.mul hleast (by decide)).isFinite_stored (by decide)
    rw [isFinite_eq, parts_mul, hsquare] at h
    exact Bool.false_ne_true h

theorem atMost_sqrt_neg {m : Nat} {e : Int} {hm : 0 < m} (h : parts x = .finite .negative m e hm) :
    AtMost 486 (parts (-x).sqrt) := by
  obtain ⟨-, he, hbits, -⟩ := parts_eq_finite h
  have hneg : parts (-x) = .finite .positive m e hm := by
    rw [parts_neg, h]
    rfl
  have hmost : AtMost 971 (.finite .positive m e hm) := ⟨hbits, he⟩
  rw [parts_sqrt, hneg]
  exact hmost.sqrt.stored (by decide) (by decide)

theorem isFinite_div {t t' : Int} (hx : AtMost t (parts x)) (hy : AtLeast t' (parts y))
    (ht : t - t' ≤ 970) : (x / y).isFinite = true := by
  have h := hx.div hy
  rw [isFinite_eq, parts_div]
  exact (h.stored (by omega) (by omega)).isFinite

end Double

end DeskCalculator
