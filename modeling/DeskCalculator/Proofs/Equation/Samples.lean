import DeskCalculator.Equation.Solved
import DeskCalculator.Proofs.Refusal

/-!
# What a solved equation consists of

An equation is solved exactly if its samples at 0, 1 and 2 are defined and the model through them
has a solution. `Equation.SolvesTo` lists what each part of the result is; the sample at 3 occurs in
one of them only.
-/

namespace DeskCalculator

namespace Equation

variable {e : Equation} {s : SolvedEquation} {f0 f1 f2 : Float}

/-- The parts of a solved equation. -/
structure SolvesTo (e : Equation) (s : SolvedEquation) : Prop where
  equation : s.equation = e
  sample0 : e.difference 0.0 = .ok s.f0
  sample1 : e.difference 1.0 = .ok s.f1
  sample2 : e.difference 2.0 = .ok s.f2
  model : s.model = Model.fit negligible s.f0 s.f1 s.f2
  solution : s.model.solve = .ok s.solution
  isDoubtful : s.isDoubtful = s.model.isContradictedBy (e.difference 3.0)

/-- With its three samples an equation is solved by the model through them. -/
theorem solve_of_samples (h0 : e.difference 0.0 = .ok f0) (h1 : e.difference 1.0 = .ok f1)
    (h2 : e.difference 2.0 = .ok f2) :
    e.solve = (fun solution ↦ ⟨e, f0, f1, f2, Model.fit negligible f0 f1 f2, solution,
      (Model.fit negligible f0 f1 f2).isContradictedBy (e.difference 3.0)⟩) <$>
        (Model.fit negligible f0 f1 f2).solve := by
  rw [solve, h0, h1, h2]
  rfl

theorem solve_eq_ok_iff : e.solve = .ok s ↔ e.SolvesTo s := by
  constructor
  · intro h
    rw [solve] at h
    obtain ⟨f0, h0, h⟩ := exists_of_bind_eq_ok h
    obtain ⟨f1, h1, h⟩ := exists_of_bind_eq_ok h
    obtain ⟨f2, h2, h⟩ := exists_of_bind_eq_ok h
    obtain ⟨solution, hsolution, h⟩ := exists_of_bind_eq_ok h
    cases h
    exact ⟨rfl, h0, h1, h2, rfl, hsolution, rfl⟩
  · rintro ⟨hequation, h0, h1, h2, hmodel, hsolution, hdoubtful⟩
    rw [solve_of_samples h0 h1 h2, ← hmodel, hsolution, ← hdoubtful, ← hequation]
    rfl

theorem solveLine_eq_solve {line : List Char} (h : ofLine line = .ok e) :
    solveLine line = e.solve := by
  rw [solveLine, h]
  rfl

theorem solveLine_eq_ok_iff {line : List Char} :
    solveLine line = .ok s ↔ ofLine line = .ok s.equation ∧ s.equation.SolvesTo s := by
  constructor
  · intro h
    obtain ⟨e, he, h⟩ := exists_of_bind_eq_ok h
    have hs := solve_eq_ok_iff.mp h
    exact ⟨hs.equation ▸ he, hs.equation ▸ hs⟩
  · rintro ⟨he, hs⟩
    rw [solveLine_eq_solve he]
    exact solve_eq_ok_iff.mpr hs

end Equation

end DeskCalculator
