import Mathlib
import DeskCalculator.Equation.Model

/-!
# The formulas in exact arithmetic

What the formulas of the solver compute when nothing is rounded, over any ordered field: the samples
of a polynomial of degree at most two give back its coefficients, the roots of the model are roots
of the polynomial, and the witness agrees with the model. Of arbitrary samples, the fourth agrees
with a model of the second degree exactly if the four lie on one polynomial of degree at most two.

A leading coefficient that is not zero but negligible is the one case in which the model is not the
polynomial. It is of the first degree then, and still so close at 3 that the witness has nothing to
say against it.
-/

namespace DeskCalculator

open Polynomial

variable {K : Type} [Field K]

/-- The polynomial `a x² + b x + c`; of a lower degree if `a` is zero. -/
noncomputable def polynomial (a b c : K) : K[X] := C a * X ^ 2 + C b * X + C c

@[simp] theorem eval_polynomial (a b c x : K) : (polynomial a b c).eval x = a * x ^ 2 + b * x + c := by
  simp only [polynomial, eval_add, eval_mul, eval_C, eval_pow, eval_X]

variable [LinearOrder K]

/-- Exact arithmetic. -/
local instance exactArithmetic : Arithmetic K where
  nat n := n
  abs x := |x|
  less x y := decide (x < y)

namespace Model

/-! ## The formulas -/

theorem fit_eq (ε y0 y1 y2 : K) : fit ε y0 y1 y2 =
    if ε < |y2 - 2 * y1 + y0| then
      quadratic ((y2 - 2 * y1 + y0) / 2) (y1 - y0 - (y2 - 2 * y1 + y0) / 2) y0
    else linear (y1 - y0) y0 := by
  simp only [fit, Arithmetic.less, Arithmetic.abs, Arithmetic.nat, decide_eq_true_eq]
  norm_cast

theorem atThree_quadratic (a b c : K) : (quadratic a b c).atThree = 9 * a + 3 * b + c := by
  simp only [atThree, Arithmetic.nat]
  norm_cast

theorem atThree_linear (a b : K) : (linear a b).atThree = 3 * a + b := by
  simp only [atThree, Arithmetic.nat]
  norm_cast

theorem discriminant_eq (a b c : K) : discriminant a b c = b * b - 4 * a * c := by
  simp only [discriminant, Arithmetic.nat]
  norm_cast

theorem upperRoot_eq (a b r : K) : upperRoot a b r = (-b + r) / (2 * a) := by
  simp only [upperRoot, Arithmetic.nat]
  norm_cast

theorem lowerRoot_eq (a b r : K) : lowerRoot a b r = (-b - r) / (2 * a) := by
  simp only [lowerRoot, Arithmetic.nat]
  norm_cast

theorem realPart_eq (a b : K) : realPart a b = -b / (2 * a) := by
  simp only [realPart, Arithmetic.nat]
  norm_cast

theorem imaginaryPart_eq (a r : K) : imaginaryPart a r = r / (2 * |a|) := by
  simp only [imaginaryPart, Arithmetic.nat, Arithmetic.abs]
  norm_cast

theorem linearRoot_eq (a b : K) : linearRoot a b = -b / a := rfl

theorem isFar_eq_false_iff (tolerance observed predicted : K) :
    isFar tolerance observed predicted = false ↔
      |observed - predicted| ≤ tolerance * max |observed| 1 := by
  have hscale : (if |observed| < 1 then 1 else |observed|) = max |observed| 1 := by
    rw [max_def_lt]
  simp only [isFar, Arithmetic.less, Arithmetic.abs, Arithmetic.nat, decide_eq_true_eq,
    decide_eq_false_iff_not, not_lt, Nat.cast_one, hscale]

/-! ## Roots -/

variable {a b c r : K}

theorem isRoot_linearRoot (hb : b ≠ 0) : (polynomial 0 b c).IsRoot (linearRoot b c) := by
  simp [linearRoot_eq, mul_div_cancel₀ _ hb]

variable [IsStrictOrderedRing K]

theorem isRoot_upperRoot (ha : a ≠ 0) (hr : r * r = discriminant a b c) :
    (polynomial a b c).IsRoot (upperRoot a b r) := by
  have hvalue : a * ((-b + r) / (2 * a)) ^ 2 + b * ((-b + r) / (2 * a)) + c
      = (r * r - (b * b - 4 * a * c)) / (4 * a) := by
    field_simp
    ring
  rw [discriminant_eq] at hr
  simp [upperRoot_eq, hvalue, hr]

theorem isRoot_lowerRoot (ha : a ≠ 0) (hr : r * r = discriminant a b c) :
    (polynomial a b c).IsRoot (lowerRoot a b r) := by
  have h := isRoot_upperRoot (b := b) (c := c) ha ((neg_mul_neg r r).trans hr)
  rwa [upperRoot_eq, ← sub_eq_add_neg, ← lowerRoot_eq] at h

/-- The conjugate roots, in any extension with a square root of minus one. -/
theorem aeval_conjugate {L : Type} [CommRing L] [Algebra K L] {i : L} (hi : i * i = -1)
    (ha : a ≠ 0) (hr : r * r = -discriminant a b c) :
    aeval (algebraMap K L (realPart a b) + algebraMap K L (imaginaryPart a r) * i)
      (polynomial a b c) = 0 := by
  have hsquare : imaginaryPart a r * imaginaryPart a r = r * r / (4 * a ^ 2) := by
    rw [imaginaryPart_eq, div_mul_div_comm, mul_mul_mul_comm, abs_mul_abs_self]
    ring
  have hreal : a * (realPart a b ^ 2 - imaginaryPart a r * imaginaryPart a r)
      + b * realPart a b + c = 0 := by
    rw [hsquare, hr, discriminant_eq, realPart_eq]
    field_simp
    ring
  have himaginary : 2 * a * realPart a b + b = 0 := by
    rw [realPart_eq]
    field_simp
    ring
  have hreal' := congrArg (algebraMap K L) hreal
  have himaginary' := congrArg (algebraMap K L) himaginary
  simp only [map_add, map_sub, map_mul, map_pow, map_ofNat, map_zero] at hreal' himaginary'
  simp only [polynomial, map_add, map_mul, map_pow, aeval_C, aeval_X]
  generalize algebraMap K L (realPart a b) = u at *
  generalize algebraMap K L (imaginaryPart a r) = v at *
  -- the real part, the imaginary part, and what the square of `i` brings from one to the other
  linear_combination hreal' + v * i * himaginary' + algebraMap K L a * v ^ 2 * hi

/-! ## Samples of a polynomial -/

theorem ne_zero_of_counts (ha : 1e-9 < |2 * a|) : a ≠ 0 := by
  rintro rfl
  rw [mul_zero, abs_zero] at ha
  exact absurd ha (by norm_num)

/-- The model through the samples of a polynomial. -/
noncomputable def sampled (ε : K) (p : K[X]) : Model K := fit ε (p.eval 0) (p.eval 1) (p.eval 2)

/-- The second difference is twice the leading coefficient. -/
theorem sampled_polynomial (ε a b c : K) : sampled ε (polynomial a b c) =
    if ε < |2 * a| then quadratic a b c else linear (a + b) c := by
  have hsecond : a * 2 ^ 2 + b * 2 + c - 2 * (a + b + c) + c = 2 * a := by ring
  have hlead : 2 * a / 2 = a := mul_div_cancel_left₀ a two_ne_zero
  have hslope : a + b + c - c = a + b := by ring
  simp [sampled, fit_eq, hsecond, hlead, hslope]

theorem isFar_sampled (a b c : K) : isFar 1e-6 ((polynomial a b c).eval 3)
    (sampled 1e-9 (polynomial a b c)).atThree = false := by
  have hthree : (polynomial a b c).eval 3 = 9 * a + 3 * b + c := by
    rw [eval_polynomial]
    ring
  have hscale : (1e-6 : K) ≤ 1e-6 * max |9 * a + 3 * b + c| 1 :=
    le_mul_of_one_le_right (by norm_num) (le_max_right _ _)
  rw [isFar_eq_false_iff, sampled_polynomial, hthree]
  split
  · rw [atThree_quadratic, sub_self, abs_zero]
    exact le_trans (by norm_num) hscale
  · next hsmall =>
    have hgap : 9 * a + 3 * b + c - (3 * (a + b) + c) = 3 * (2 * a) := by ring
    rw [not_lt] at hsmall
    rw [atThree_linear, hgap, abs_mul, abs_of_pos (by norm_num : (0 : K) < 3)]
    exact le_trans (by linarith [(by norm_num : (3 : K) * 1e-9 ≤ 1e-6)]) hscale

/-! ## Arbitrary samples -/

/-- Four samples on one polynomial of degree at most two. -/
def LieOnQuadratic (y0 y1 y2 y3 : K) : Prop :=
  ∃ p : K[X], p.natDegree ≤ 2 ∧ p.eval 0 = y0 ∧ p.eval 1 = y1 ∧ p.eval 2 = y2 ∧ p.eval 3 = y3

variable {y0 y1 y2 y3 : K}

theorem lieOnQuadratic_iff :
    LieOnQuadratic y0 y1 y2 y3 ↔ y3 - 3 * y2 + 3 * y1 - y0 = 0 := by
  constructor
  · rintro ⟨p, hp, rfl, rfl, rfl, rfl⟩
    simp only [eval_eq_sum_range' (Nat.lt_succ_of_le hp), Finset.sum_range_succ,
      Finset.sum_range_zero]
    ring
  · intro h
    refine ⟨polynomial ((y2 - 2 * y1 + y0) / 2) (y1 - y0 - (y2 - 2 * y1 + y0) / 2) y0,
      natDegree_quadratic_le, ?_, ?_, ?_, ?_⟩ <;> rw [eval_polynomial]
    · ring
    · ring
    · ring
    · linear_combination -h

theorem atThree_fit_eq_iff {ε : K} (h : (fit ε y0 y1 y2).degree = 2) :
    (fit ε y0 y1 y2).atThree = y3 ↔ y3 - 3 * y2 + 3 * y1 - y0 = 0 := by
  rw [fit_eq] at h ⊢
  split at h
  · next hsecond =>
    rw [if_pos hsecond, atThree_quadratic, eq_comm, ← sub_eq_zero]
    have hgap : y3 - (9 * ((y2 - 2 * y1 + y0) / 2)
        + 3 * (y1 - y0 - (y2 - 2 * y1 + y0) / 2) + y0) = y3 - 3 * y2 + 3 * y1 - y0 := by ring
    rw [hgap]
  · cases h

/-! ## The solver -/

/-- **The solver in exact arithmetic.** Of a polynomial of degree at most two, the samples give back
the coefficients if the leading one is zero or not negligible; the roots of each branch are its
roots; and the witness never speaks against the model. Of four arbitrary samples, a model of the
second degree predicts the fourth exactly if their third difference is zero, and that is if they lie
on one polynomial of degree at most two. -/
theorem fit_exact (a b c : K) :
    (1e-9 < |2 * a| → sampled 1e-9 (polynomial a b c) = quadratic a b c ∧
      (∀ r, r * r = discriminant a b c → (polynomial a b c).IsRoot (upperRoot a b r) ∧
        (polynomial a b c).IsRoot (lowerRoot a b r)) ∧
      ∀ r, r * r = -discriminant a b c →
        ∀ (L : Type) [CommRing L] [Algebra K L] (i : L), i * i = -1 →
          aeval (algebraMap K L (realPart a b) + algebraMap K L (imaginaryPart a r) * i)
            (polynomial a b c) = 0 ∧
          aeval (algebraMap K L (realPart a b) - algebraMap K L (imaginaryPart a r) * i)
            (polynomial a b c) = 0) ∧
    (a = 0 → sampled 1e-9 (polynomial a b c) = linear b c ∧
      (b ≠ 0 → (polynomial a b c).IsRoot (linearRoot b c))) ∧
    (|2 * a| ≤ 1e-9 → sampled 1e-9 (polynomial a b c) = linear (a + b) c) ∧
    isFar 1e-6 ((polynomial a b c).eval 3) (sampled 1e-9 (polynomial a b c)).atThree = false ∧
    ∀ y0 y1 y2 y3 : K, (fit 1e-9 y0 y1 y2).degree = 2 →
      ((fit 1e-9 y0 y1 y2).atThree = y3 ↔ y3 - 3 * y2 + 3 * y1 - y0 = 0) ∧
      (y3 - 3 * y2 + 3 * y1 - y0 = 0 ↔ LieOnQuadratic y0 y1 y2 y3) := by
  have hfit := sampled_polynomial 1e-9 a b c
  refine ⟨fun ha ↦ ⟨hfit.trans (if_pos ha), ?_, ?_⟩, ?_, fun ha ↦ hfit.trans (if_neg ha.not_gt),
    isFar_sampled a b c, fun y0 y1 y2 y3 h ↦ ⟨atThree_fit_eq_iff h, lieOnQuadratic_iff.symm⟩⟩
  · have ha' := ne_zero_of_counts ha
    exact fun r hr ↦ ⟨isRoot_upperRoot ha' hr, isRoot_lowerRoot ha' hr⟩
  · intro r hr L _ _ i hi
    have ha' := ne_zero_of_counts ha
    refine ⟨aeval_conjugate hi ha' hr, ?_⟩
    rw [sub_eq_add_neg, ← mul_neg]
    exact aeval_conjugate ((neg_mul_neg i i).trans hi) ha' hr
  · rintro rfl
    refine ⟨?_, isRoot_linearRoot⟩
    rw [hfit, mul_zero, abs_zero, if_neg (by norm_num), zero_add]

/-- Two real roots, two conjugate ones, the root of a line, and the samples of a cube. -/
theorem fit_exact_rational :
    (sampled 1e-9 (polynomial (1 : ℚ) 0 (-4)) = quadratic 1 0 (-4) ∧
      (polynomial (1 : ℚ) 0 (-4)).IsRoot 2 ∧ (polynomial (1 : ℚ) 0 (-4)).IsRoot (-2)) ∧
    (sampled 1e-9 (polynomial (1 : ℚ) 2 5) = quadratic 1 2 5 ∧
      aeval (-1 + 2 * Complex.I) (polynomial (1 : ℚ) 2 5) = 0) ∧
    (sampled 1e-9 (polynomial (0 : ℚ) 2 (-4)) = linear 2 (-4) ∧
      (polynomial (0 : ℚ) 2 (-4)).IsRoot 2) ∧
    (fit 1e-9 (0 : ℚ) 1 8).atThree ≠ 27 := by
  refine ⟨?_, ?_, ?_, ?_⟩
  · obtain ⟨hfit, hroots, -⟩ := (fit_exact (1 : ℚ) 0 (-4)).1 (by norm_num)
    obtain ⟨hupper, hlower⟩ := hroots 4 (by rw [discriminant_eq]; norm_num)
    rw [upperRoot_eq, show (-0 + 4) / (2 * 1) = (2 : ℚ) by norm_num] at hupper
    rw [lowerRoot_eq, show (-0 - 4) / (2 * 1) = (-2 : ℚ) by norm_num] at hlower
    exact ⟨hfit, hupper, hlower⟩
  · obtain ⟨hfit, -, hroots⟩ := (fit_exact (1 : ℚ) 2 5).1 (by norm_num)
    obtain ⟨hroot, -⟩ :=
      hroots 4 (by rw [discriminant_eq]; norm_num) ℂ Complex.I Complex.I_mul_I
    rw [realPart_eq, imaginaryPart_eq, show -2 / (2 * 1) = (-1 : ℚ) by norm_num,
      show 4 / (2 * |1|) = (2 : ℚ) by norm_num, map_neg, map_one, map_ofNat] at hroot
    exact ⟨hfit, hroot⟩
  · obtain ⟨hfit, hroot⟩ := (fit_exact (0 : ℚ) 2 (-4)).2.1 rfl
    have hvalue := hroot two_ne_zero
    rw [linearRoot_eq, show - -4 / 2 = (2 : ℚ) by norm_num] at hvalue
    exact ⟨hfit, hvalue⟩
  · have hcounts : (1e-9 : ℚ) < |8 - 2 * 1 + 0| := by norm_num
    have hdegree : (fit 1e-9 (0 : ℚ) 1 8).degree = 2 := by
      rw [fit_eq, if_pos hcounts]
      rfl
    rw [Ne, ((fit_exact (0 : ℚ) 0 0).2.2.2.2 0 1 8 27 hdegree).1]
    norm_num

end Model

end DeskCalculator
