import DeskCalculator.Equation.Solution
import DeskCalculator.Proofs.Number.Finiteness
import DeskCalculator.Proofs.Refusal

/-!
# Solutions in finite numbers

Real roots are refused unless they are finite, conjugate roots are not. Whether conjugate roots are
finite is decided by their discriminant alone: a finite discriminant keeps the coefficients and its
own square root far from the end of the range, and the leading coefficient of a model of the second
degree is never so small that dividing by it leads there.
-/

namespace DeskCalculator

open Double
open Float.Model.UnpackedFloat

/-- The numbers of a solution. Conjugate roots have two each. -/
def Solution.numbers : Solution → List Float
  | unique x => [x]
  | real x y => [x, y]
  | conjugate re im => [re, im, re, -im]
  | none | every => []

/-- All numbers of the solution are finite. -/
def Solution.IsFinite (s : Solution) : Prop := ∀ x ∈ s.numbers, x.isFinite = true

namespace Model

/-- The discriminant of a model of the second degree is finite. -/
def HasFiniteDiscriminant : Model Float → Prop
  | quadratic a b c => (discriminant a b c).isFinite = true
  | linear _ _ => True

/-! ## The leading coefficient -/

variable {a b c d f0 f1 f2 : Float}

theorem parts_two : parts (Float.ofNat 2) = .finite .positive (2 ^ 52) (-51) (by decide) := rfl

theorem atLeast_two : AtLeast (-51) (parts (Float.ofNat 2)) := by
  rw [parts_two]
  exact ⟨⟨by decide, by decide⟩, by decide⟩

theorem parts_negligible :
    parts negligible = .finite .positive 4835703278458517 (-82) (by decide) := rfl

theorem atLeast_of_less_negligible (h : Arithmetic.less negligible (Arithmetic.abs d) = true) :
    AtLeast (-82) (parts d) := by
  have hlt : (parts negligible).compare (parts d).abs = some .lt := by
    rw [← parts_abs]
    exact beq_iff_eq.mp (of_decide_eq_true (of_decide_eq_true h))
  rw [parts_negligible] at hlt
  cases hd : parts d with
  | infinity s => exact trivial
  | notANumber =>
    rw [hd] at hlt
    cases hlt
  | zero s =>
    rw [hd] at hlt
    cases hlt
  | finite s m e hm =>
    obtain ⟨-, -, -, hnormal⟩ := parts_eq_finite hd
    rw [hd] at hlt
    -- exponents are compared first, and mantissas only if those are equal
    have hthen : (compare (-82) e).then (compare 4835703278458517 m) = .lt := Option.some.inj hlt
    have he : -82 ≤ e := by
      by_contra hsmall
      rw [Int.compare_eq_gt.mpr (Int.not_le.mp hsmall)] at hthen
      cases hthen
    exact ⟨hnormal.resolve_right (by omega), he⟩

theorem atLeast_half (h : AtLeast (-82) (parts d)) : AtLeast (-84) (parts (d / Float.ofNat 2)) := by
  have hnormal : IsNormal (2 ^ 52) := ⟨by decide, by decide⟩
  have hdiv : AtLeast (-82 - -51 - 53) _ := h.div .positive hnormal.pos hnormal (by decide)
  rw [parts_div, parts_two]
  exact (hdiv.mono (by decide)).stored (by decide)

theorem atLeast_of_fit_eq (h : fit negligible f0 f1 f2 = quadratic a b c) :
    AtLeast (-84) (parts a) := by
  simp only [fit] at h
  split at h
  · next hsecond =>
    cases h
    exact atLeast_half (atLeast_of_less_negligible hsecond)
  · cases h

theorem atLeast_double (h : AtLeast (-84) (parts a)) :
    AtLeast (-83) (parts (Float.ofNat 2 * a)) := by
  rw [parts_mul]
  exact (atLeast_two.mul h (by decide)).stored (by decide)

/-! ## Conjugate roots -/

theorem parts_eq_of_not_le (hd : d.isFinite = true) (h : ¬ (0.0 : Float) ≤ d) :
    ∃ m e hm, parts d = .finite .negative m e hm := by
  have hle : (0.0 : Float) ≤ d ↔ (parts 0.0).le (parts d) = true := decide_eq_true_iff
  have hzero : parts 0.0 = .zero .positive := rfl
  rw [hle, hzero] at h
  have hfinite : (parts d).isFinite = true := hd
  rcases eq_zero_or_eq_finite hfinite with ⟨s, hparts⟩ | ⟨s, m, e, hm, hparts⟩
  · rw [hparts] at h
    exact absurd rfl h
  · cases s with
    | negative => exact ⟨m, e, hm, hparts⟩
    | positive =>
      rw [hparts] at h
      exact absurd rfl h

/-- With a finite discriminant the conjugate roots of a model of the second degree are finite. -/
theorem isFinite_conjugate (ha : AtLeast (-84) (parts a))
    (hd : (discriminant a b c).isFinite = true) (hneg : ¬ (0.0 : Float) ≤ discriminant a b c) :
    (realPart a b).isFinite = true ∧
      (imaginaryPart a (-discriminant a b c).sqrt).isFinite = true := by
  have hdouble : AtLeast (-83) (parts (Float.ofNat 2 * a)) := atLeast_double ha
  have hdouble' : AtLeast (-83) (parts (Float.ofNat 2 * a.abs)) := atLeast_double (by simpa using ha)
  have hb : AtMost 459 (parts (-b)) := by
    simpa using atMost_of_isFinite_mul_self (isFinite_of_sub hd).1
  obtain ⟨m, e, hm, hparts⟩ := parts_eq_of_not_le hd hneg
  exact ⟨isFinite_div hb hdouble (by decide),
    isFinite_div (atMost_sqrt_neg hparts) hdouble' (by decide)⟩

theorem isFinite_discriminant_of_imaginaryPart
    (h : (imaginaryPart a (-d).sqrt).isFinite = true) : d.isFinite = true := by
  simpa using isFinite_of_sqrt (isFinite_of_div h)

theorem isFinite_discriminant_of_upperRoot (h : (upperRoot a b d.sqrt).isFinite = true) :
    d.isFinite = true :=
  isFinite_of_sqrt (isFinite_of_add (isFinite_of_div h)).2

/-! ## Solutions -/

variable {s : Solution}

theorem isFinite_solution_quadratic (ha : AtLeast (-84) (parts a))
    (h : (quadratic a b c).solve = .ok s) (hd : (discriminant a b c).isFinite = true) :
    s.IsFinite := by
  simp only [solve] at h
  split at h
  · split at h
    · next hroots =>
      cases h
      rw [Bool.and_eq_true] at hroots
      simpa [Solution.IsFinite, Solution.numbers] using hroots
    · cases h
  · next hneg =>
    cases h
    obtain ⟨hre, him⟩ := isFinite_conjugate ha hd hneg
    simp [Solution.IsFinite, Solution.numbers, hre, him]

theorem isFinite_solution_linear (h : (linear a b).solve = .ok s) : s.IsFinite := by
  simp only [solve] at h
  split at h
  · split at h <;>
    · cases h
      rintro x ⟨⟩
  · obtain ⟨x, hx, rfl⟩ := exists_of_map_eq_ok h
    obtain ⟨hroot, rfl⟩ := finite_eq_ok_iff.mp hx
    simpa [Solution.IsFinite, Solution.numbers] using hroot

/-- The solution of a fitted model is finite if its discriminant is. -/
theorem isFinite_solution (h : (fit negligible f0 f1 f2).solve = .ok s)
    (hd : (fit negligible f0 f1 f2).HasFiniteDiscriminant) : s.IsFinite := by
  cases hfit : fit negligible f0 f1 f2 with
  | quadratic a b c =>
    rw [hfit] at h hd
    exact isFinite_solution_quadratic (atLeast_of_fit_eq hfit) h hd
  | linear a b =>
    rw [hfit] at h
    exact isFinite_solution_linear h

/-- If its discriminant is not finite, a solution is a pair of conjugate roots with an imaginary
part that is not finite either: real roots would have been refused. -/
theorem exists_eq_conjugate {m : Model Float} (h : m.solve = .ok s)
    (hd : ¬ m.HasFiniteDiscriminant) : ∃ re im, s = .conjugate re im ∧ im.isFinite = false := by
  cases m with
  | linear a b => exact absurd trivial hd
  | quadratic a b c =>
    simp only [solve] at h
    split at h
    · split at h
      · next hroots =>
        rw [Bool.and_eq_true] at hroots
        -- real roots are let through only if they are finite
        exact absurd (isFinite_discriminant_of_upperRoot hroots.1) hd
      · cases h
    · cases h
      refine ⟨_, _, rfl, ?_⟩
      rw [← Bool.not_eq_true]
      exact fun him ↦ hd (isFinite_discriminant_of_imaginaryPart him)

theorem eq_notFinite_of_solve {m : Model Float} {f : Fault} (h : m.solve = .error f) :
    f = .notFinite := by
  cases m with
  | quadratic a b c =>
    simp only [solve] at h
    split at h
    · split at h
      · cases h
      · cases h
        rfl
    · cases h
  | linear a b =>
    simp only [solve] at h
    split at h
    · cases h
    · exact eq_notFinite_of_finite (error_of_map_eq_error h)

end Model

end DeskCalculator
