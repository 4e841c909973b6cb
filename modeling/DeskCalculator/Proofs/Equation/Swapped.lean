import DeskCalculator.Proofs.Equation.FiniteRoots
import DeskCalculator.Proofs.Equation.Samples
import DeskCalculator.Proofs.Number.Signed
import DeskCalculator.Proofs.Text.Stretch

/-!
# Equations with their sides exchanged

Exchanging the sides of an equation turns the sign of every sample. The sign goes through the
second difference and the coefficients of the model, and drops out of the discriminant, so the
solution is the same; the two real roots only come in the other order, because a sign that is taken
out of a numerator and a denominator exchanges the two square roots. The witness sees two numbers of
the other sign and judges them as before.

All this holds in double precision as it stands, up to the sign of zeros. A zero that appears with
another sign could only show as a divisor, and no divisor of the formulas is zero.
-/

namespace DeskCalculator

open Double

/-! ## Models and solutions, number by number -/

namespace Model

/-- Two models of the same degree with coefficients that are in this relation. -/
def Corresponds (r : Float → Float → Prop) : Model Float → Model Float → Prop
  | quadratic a b c, quadratic a' b' c' => r a a' ∧ r b b' ∧ r c c'
  | linear a b, linear a' b' => r a a' ∧ r b b'
  | _, _ => False

end Model

/-- Two solutions of the same kind with numbers that are in this relation, the two real roots in the
other order. -/
def Solution.Corresponds (r : Float → Float → Prop) : Solution → Solution → Prop
  | unique x, unique x' => r x x'
  | real x y, real x' y' => r x y' ∧ r y x'
  | conjugate re im, conjugate re' im' => r re re' ∧ r im im'
  | none, none => True
  | every, every => True
  | _, _ => False

namespace Model

variable {a a' b b' c c' d d' f0 f0' f1 f1' f2 f2' : Float} {m m' : Model Float} {s : Solution}

/-! ## The model -/

theorem less_iff (x y : Float) : Arithmetic.less x y = true ↔ x < y := decide_eq_true_iff

theorem alike_nat (n : Nat) : Alike .positive (Arithmetic.nat n) (Arithmetic.nat n) := Alike.refl _

theorem alike_double {s : Float.Model.UnpackedFloat.Sign} (h : Alike s a a') :
    Alike s (Arithmetic.nat 2 * a) (Arithmetic.nat 2 * a') := by
  have hdouble := (alike_nat 2).mul h
  rwa [positive_mul] at hdouble

theorem corresponds_fit (h0 : Alike .negative f0 f0') (h1 : Alike .negative f1 f1')
    (h2 : Alike .negative f2 f2') :
    (fit negligible f0 f1 f2).Corresponds (Alike .negative) (fit negligible f0' f1' f2') := by
  have hd : Alike .negative (f2 - Arithmetic.nat 2 * f1 + f0)
      (f2' - Arithmetic.nat 2 * f1' + f0') :=
    (h2.sub (alike_double h1)).add h0
  have hlead : Alike .negative ((f2 - Arithmetic.nat 2 * f1 + f0) / Arithmetic.nat 2)
      ((f2' - Arithmetic.nat 2 * f1' + f0') / Arithmetic.nat 2) :=
    hd.div (alike_nat 2) nofun
  have hcounts : negligible < Arithmetic.abs (f2' - Arithmetic.nat 2 * f1' + f0') ↔
      negligible < Arithmetic.abs (f2 - Arithmetic.nat 2 * f1 + f0) :=
    (Alike.refl negligible).lt_iff hd.abs
  simp only [fit, less_iff, hcounts]
  split
  · exact ⟨hlead, (h1.sub h0).sub hlead, h0⟩
  · exact ⟨h1.sub h0, h0⟩

theorem alike_discriminant (ha : Alike .negative a a') (hb : Alike .negative b b')
    (hc : Alike .negative c c') : Alike .positive (discriminant a b c) (discriminant a' b' c') :=
  (hb.mul hb).sub (((alike_nat 4).mul ha).mul hc)

/-! ## Its solution -/

theorem ne_zero_of_atLeast {t : Int} {x : Float} (h : AtLeast t (parts x)) (r) :
    parts x ≠ .zero r := by
  intro hx
  rw [hx] at h
  exact h

theorem alike_realRoots {r r' : Float} (ha : AtLeast (-84) (parts a)) (haa : Alike .negative a a')
    (hb : Alike .negative b b') (hr : Alike .positive r r') :
    Alike .positive (upperRoot a b r) (lowerRoot a' b' r') ∧
      Alike .positive (lowerRoot a b r) (upperRoot a' b' r') := by
  have hzero := ne_zero_of_atLeast (atLeast_double ha)
  exact ⟨(hb.neg.add_sub hr).div (alike_double haa) hzero,
    (hb.neg.sub_add hr).div (alike_double haa) hzero⟩

theorem alike_conjugate (ha : AtLeast (-84) (parts a)) (haa : Alike .negative a a')
    (hb : Alike .negative b b') (hd : Alike .positive d d') :
    Alike .positive (realPart a b) (realPart a' b') ∧
      Alike .positive (imaginaryPart a (-d).sqrt) (imaginaryPart a' (-d').sqrt) := by
  have habs : AtLeast (-84) (parts a.abs) := by simpa using ha
  exact ⟨hb.neg.div (alike_double haa) (ne_zero_of_atLeast (atLeast_double ha)),
    hd.neg.sqrt.div (alike_double haa.abs) (ne_zero_of_atLeast (atLeast_double habs))⟩

theorem solve_quadratic_alike (ha : AtLeast (-84) (parts a)) (haa : Alike .negative a a')
    (hb : Alike .negative b b') (hc : Alike .negative c c') (h : (quadratic a b c).solve = .ok s) :
    ∃ s', (quadratic a' b' c').solve = .ok s' ∧ s.Corresponds (Alike .positive) s' := by
  have hd := alike_discriminant haa hb hc
  obtain ⟨hupper, hlower⟩ := alike_realRoots ha haa hb hd.sqrt
  have hsign := (Alike.refl 0.0).le_iff hd
  simp only [solve] at h ⊢
  split at h
  · next hle =>
    rw [if_pos (hsign.mpr hle)]
    split at h
    · next hfinite =>
      cases h
      rw [Bool.and_comm, ← hupper.isFinite_eq, ← hlower.isFinite_eq] at hfinite
      rw [if_pos hfinite]
      exact ⟨_, rfl, hupper, hlower⟩
    · cases h
  · next hle =>
    cases h
    rw [if_neg (mt hsign.mp hle)]
    exact ⟨_, rfl, alike_conjugate ha haa hb hd⟩

theorem ne_zero_of_not_negligible (ha : ¬ a.abs < negligible) (r) : parts a ≠ .zero r := by
  intro hzero
  have hlt : a.abs < negligible ↔ (parts a.abs).lt (parts negligible) = true := decide_eq_true_iff
  rw [hlt, parts_abs, hzero, parts_negligible] at ha
  exact ha rfl

theorem solve_linear_alike (ha : Alike .negative a a') (hb : Alike .negative b b')
    (h : (linear a b).solve = .ok s) :
    ∃ s', (linear a' b').solve = .ok s' ∧ s.Corresponds (Alike .positive) s' := by
  have hslope := ha.abs.lt_iff (Alike.refl negligible)
  have hconstant := hb.abs.lt_iff (Alike.refl negligible)
  simp only [solve, hslope, hconstant] at h ⊢
  split at h
  · next hsmall =>
    rw [if_pos hsmall]
    cases h
    refine ⟨_, rfl, ?_⟩
    split <;> exact trivial
  · next hsmall =>
    rw [if_neg hsmall]
    obtain ⟨x, hx, rfl⟩ := exists_of_map_eq_ok h
    obtain ⟨hfinite, rfl⟩ := finite_eq_ok_iff.mp hx
    have hroot : Alike .positive (linearRoot a b) (linearRoot a' b') :=
      hb.neg.div ha (ne_zero_of_not_negligible hsmall)
    rw [← hroot.isFinite_eq] at hfinite
    rw [finite_eq_ok_iff.mpr ⟨hfinite, rfl⟩]
    exact ⟨_, rfl, hroot⟩

/-- Samples of the other sign have a model with the same solution. -/
theorem solve_fit_alike (h0 : Alike .negative f0 f0') (h1 : Alike .negative f1 f1')
    (h2 : Alike .negative f2 f2') (h : (fit negligible f0 f1 f2).solve = .ok s) :
    ∃ s', (fit negligible f0' f1' f2').solve = .ok s' ∧ s.Corresponds (Alike .positive) s' := by
  have hfit := corresponds_fit h0 h1 h2
  cases hm : fit negligible f0 f1 f2 with
  | quadratic a b c =>
    cases hm' : fit negligible f0' f1' f2' with
    | quadratic a' b' c' =>
      rw [hm, hm'] at hfit
      rw [hm] at h
      exact solve_quadratic_alike (atLeast_of_fit_eq hm) hfit.1 hfit.2.1 hfit.2.2 h
    | linear a' b' =>
      rw [hm, hm'] at hfit
      exact hfit.elim
  | linear a b =>
    cases hm' : fit negligible f0' f1' f2' with
    | quadratic a' b' c' =>
      rw [hm, hm'] at hfit
      exact hfit.elim
    | linear a' b' =>
      rw [hm, hm'] at hfit
      rw [hm] at h
      exact solve_linear_alike hfit.1 hfit.2 h

/-! ## The witness -/

theorem alike_atThree (h : m.Corresponds (Alike .negative) m') :
    Alike .negative m.atThree m'.atThree := by
  match m, m', h with
  | quadratic a b c, quadratic a' b' c', ⟨ha, hb, hc⟩ =>
    exact (((alike_nat 9).mul ha).add ((alike_nat 3).mul hb)).add hc
  | linear a b, linear a' b', ⟨ha, hb⟩ => exact ((alike_nat 3).mul ha).add hb

theorem isFar_eq {o o' p p' : Float} (ho : Alike .negative o o') (hp : Alike .negative p p')
    (tolerance : Float) : isFar tolerance o' p' = isFar tolerance o p := by
  have hone : Arithmetic.abs o' < Arithmetic.nat 1 ↔ Arithmetic.abs o < Arithmetic.nat 1 :=
    ho.abs.lt_iff (alike_nat 1)
  have hscale : Alike .positive
      (if Arithmetic.abs o < Arithmetic.nat 1 then Arithmetic.nat 1 else Arithmetic.abs o)
      (if Arithmetic.abs o < Arithmetic.nat 1 then Arithmetic.nat 1 else Arithmetic.abs o') := by
    split
    · exact alike_nat 1
    · exact ho.abs
  rw [Bool.eq_iff_iff]
  simp only [isFar, less_iff, hone]
  exact ((Alike.refl tolerance).mul hscale).lt_iff (ho.sub hp).abs

end Model

/-! ## Exchanged sides -/

namespace Equation

/-- The equation with its sides exchanged. -/
def swap (e : Equation) : Equation := ⟨e.right, e.left⟩

theorem ofLine_append {l r : List Char} (hl : '=' ∉ l) (hr : '=' ∉ r) :
    ofLine (l ++ '=' :: r) =
      if (trim l).isEmpty || (trim r).isEmpty then .error (.notEquation .emptySide)
      else if mentionsVariable (trim l) || mentionsVariable (trim r) then .ok ⟨trim l, trim r⟩
      else .error (.notEquation .noVariable) := by
  have hleft : ∀ c ∈ l, (c != '=') = true := fun c hc ↦ bne_iff_ne.mpr (ne_of_mem_of_not_mem hc hl)
  have hhead : ∀ c ∈ ('=' :: r).head?, (c != '=') = false := by
    rintro c ⟨⟩
    rfl
  have hcontains : r.contains '=' = false := by
    rwa [← Bool.not_eq_true, List.contains_iff_mem]
  rw [ofLine, dropWhile_stretch hleft hhead, takeWhile_stretch hleft hhead]
  simp only [hcontains, Bool.false_eq_true, if_false]

theorem ofLine_swap {l r : List Char} (hl : '=' ∉ l) (hr : '=' ∉ r) :
    ofLine (r ++ '=' :: l) = swap <$> ofLine (l ++ '=' :: r) := by
  rw [ofLine_append hl hr, ofLine_append hr hl, Bool.or_comm (trim r).isEmpty,
    Bool.or_comm (mentionsVariable (trim r))]
  split
  · rfl
  · split <;> rfl

/-- The samples of the two equations are each other's negatives, or neither has one. -/
theorem difference_swap (e : Equation) (v : Float) :
    (∃ x x', e.difference v = .ok x ∧ e.swap.difference v = .ok x' ∧ Alike .negative x x') ∨
      ∃ f f', e.difference v = .error f ∧ e.swap.difference v = .error f' := by
  rw [difference, difference, swap]
  rcases evaluateAt e.left v with f | l <;> rcases evaluateAt e.right v with f' | r
  · exact .inr ⟨f, f', rfl, rfl⟩
  · exact .inr ⟨f, f, rfl, rfl⟩
  · exact .inr ⟨f', f', rfl, rfl⟩
  · have hsign := Alike.sub_comm l r
    by_cases h : (l - r).isFinite = true
    · exact .inl ⟨l - r, r - l, finite_eq_ok_iff.mpr ⟨h, rfl⟩,
        finite_eq_ok_iff.mpr ⟨hsign.isFinite_eq.trans h, rfl⟩, hsign⟩
    · refine .inr ⟨.notFinite, .notFinite, if_neg h, if_neg ?_⟩
      rwa [hsign.isFinite_eq]

theorem exists_difference_swap {e : Equation} {v x : Float} (h : e.difference v = .ok x) :
    ∃ x', e.swap.difference v = .ok x' ∧ Alike .negative x x' := by
  rcases e.difference_swap v with ⟨y, x', hy, hx', hsign⟩ | ⟨f, f', hf, -⟩
  · rw [h] at hy
    cases hy
    exact ⟨x', hx', hsign⟩
  · rw [h] at hf
    cases hf

/-- The witness sees the model of the exchanged equation as it sees the model of the equation. -/
theorem isContradictedBy_swap (e : Equation) (v : Float) {m m' : Model Float}
    (hm : m.Corresponds (Alike .negative) m') :
    m'.isContradictedBy (e.swap.difference v) = m.isContradictedBy (e.difference v) := by
  rcases e.difference_swap v with ⟨x, x', hx, hx', hsign⟩ | ⟨f, f', hf, hf'⟩
  · rw [hx, hx']
    exact Model.isFar_eq hsign (Model.alike_atThree hm) witnessTolerance
  · rw [hf, hf']
    rfl

end Equation

/-! ## The solved equations -/

theorem Model.Corresponds.mono {r q : Float → Float → Prop} (hrq : ∀ x y, r x y → q x y)
    {m m' : Model Float} (h : m.Corresponds r m') : m.Corresponds q m' := by
  match m, m', h with
  | .quadratic .., .quadratic .., ⟨ha, hb, hc⟩ => exact ⟨hrq _ _ ha, hrq _ _ hb, hrq _ _ hc⟩
  | .linear .., .linear .., ⟨ha, hb⟩ => exact ⟨hrq _ _ ha, hrq _ _ hb⟩

theorem Model.Corresponds.degree_eq {r : Float → Float → Prop} {m m' : Model Float}
    (h : m.Corresponds r m') : m'.degree = m.degree := by
  match m, m', h with
  | .quadratic .., .quadratic .., _ => rfl
  | .linear .., .linear .., _ => rfl

theorem Solution.Corresponds.mono {r q : Float → Float → Prop} (hrq : ∀ x y, r x y → q x y)
    {s s' : Solution} (h : s.Corresponds r s') : s.Corresponds q s' := by
  match s, s', h with
  | .unique _, .unique _, h => exact hrq _ _ h
  | .real .., .real .., ⟨hx, hy⟩ => exact ⟨hrq _ _ hx, hrq _ _ hy⟩
  | .conjugate .., .conjugate .., ⟨hre, him⟩ => exact ⟨hrq _ _ hre, hrq _ _ him⟩
  | .none, .none, _ => exact trivial
  | .every, .every, _ => exact trivial

/-- What an equation and the same equation with its sides exchanged have in common: the coefficients
are each other's negatives, the solution is the same, and so are the doubt and the warning. -/
structure SolvedEquation.IsSwapped (s s' : SolvedEquation) : Prop where
  equation : s'.equation = s.equation.swap
  model : s.model.Corresponds (fun x y ↦ Same y (-x)) s'.model
  solution : s.solution.Corresponds Same s'.solution
  isDoubtful : s'.isDoubtful = s.isDoubtful
  warning : s'.warning = s.warning

theorem Equation.SolvesTo.exists_swap {e : Equation} {s : SolvedEquation} (h : e.SolvesTo s) :
    ∃ s', e.swap.SolvesTo s' ∧ s.IsSwapped s' := by
  obtain ⟨f0, h0, hsign0⟩ := exists_difference_swap h.sample0
  obtain ⟨f1, h1, hsign1⟩ := exists_difference_swap h.sample1
  obtain ⟨f2, h2, hsign2⟩ := exists_difference_swap h.sample2
  have hmodel := Model.corresponds_fit hsign0 hsign1 hsign2
  have hsolution := h.solution
  rw [h.model] at hsolution
  obtain ⟨solution, hsolve, hcorresponds⟩ :=
    Model.solve_fit_alike hsign0 hsign1 hsign2 hsolution
  rw [← h.model] at hmodel
  have hdoubtful := isContradictedBy_swap e 3.0 hmodel
  rw [← h.isDoubtful] at hdoubtful
  refine ⟨⟨e.swap, f0, f1, f2, Model.fit negligible f0 f1 f2, solution, s.isDoubtful⟩,
    ⟨rfl, h0, h1, h2, rfl, hsolve, hdoubtful.symm⟩, ⟨?_, ?_, ?_, rfl, ?_⟩⟩
  · rw [h.equation]
  · exact hmodel.mono fun _ _ ↦ Alike.same_neg
  · exact hcorresponds.mono fun _ _ ↦ Alike.same
  · rw [SolvedEquation.warning, SolvedEquation.warning, hmodel.degree_eq]

/-- **Exchanging the sides of an equation does not change its solution.** If the equation is solved,
so is the exchanged one, by a solution of the same kind with the same numbers, the two real roots in
the other order; the model has the negatives of the coefficients, and the witness agrees. -/
theorem solveLine_swap {l r : List Char} (hl : '=' ∉ l) (hr : '=' ∉ r) {s : SolvedEquation}
    (h : solveLine (l ++ '=' :: r) = .ok s) :
    ∃ s', solveLine (r ++ '=' :: l) = .ok s' ∧ s.IsSwapped s' := by
  obtain ⟨he, hs⟩ := Equation.solveLine_eq_ok_iff.mp h
  obtain ⟨s', hs', hswapped⟩ := hs.exists_swap
  have he' : Equation.ofLine (r ++ '=' :: l) = .ok s'.equation := by
    rw [Equation.ofLine_swap hl hr, he, hs'.equation]
    rfl
  exact ⟨s', Equation.solveLine_eq_ok_iff.mpr ⟨he', hs'.equation ▸ hs'⟩, hswapped⟩

/-- Two real roots, one of them zero, of an equation that is no polynomial of the degree assumed. -/
theorem solveLine_swap_cube :
    ∃ s s', solveLine "x*x*x=x".toList = .ok s ∧ solveLine "x=x*x*x".toList = .ok s' ∧
      s.solution = .real 1.0 0.0 ∧ s.isDoubtful = true ∧ s.IsSwapped s' := by
  have hsolved : (solveLine ("x*x*x".toList ++ '=' :: "x".toList)).toOption.map
      (fun s ↦ (s.solution, s.isDoubtful)) = some (.real 1.0 0.0, true) := by decide +kernel
  obtain ⟨s, hs, hparts⟩ := Option.map_eq_some_iff.mp hsolved
  obtain ⟨hroots, hdoubtful⟩ := Prod.mk.inj hparts
  have h := eq_ok_of_toOption hs
  obtain ⟨s', h', hswapped⟩ := solveLine_swap (by decide) (by decide) h
  exact ⟨s, s', h, h', hroots, hdoubtful, hswapped⟩

end DeskCalculator
