import DeskCalculator.Calculation
import DeskCalculator.Proofs.Equation.FiniteRoots
import DeskCalculator.Proofs.Equation.Samples

/-!
# What the witness decides

The sample at 3 is a witness of the model, not a part of it. Two equations with the same samples at
0, 1 and 2 have the same model and the same solution, or both are refused, whatever their texts and
whatever happens at 3; there the evaluation may even fail. All that the witness decides is the doubt
about the solution.

The doubt shows in two places, which agree: the last line of the way to the solution and the warning
of the entry in the history, which names the degree of the model.
-/

namespace DeskCalculator

namespace SolvedEquation

variable {s : SolvedEquation}

/-! ## The doubt in the way to the solution -/

theorem solutionLines_ne_nil (s : SolvedEquation) : s.solutionLines ≠ [] := by
  rw [solutionLines]
  rcases s.solution with _ | _ | _ | _ | _ <;> exact List.cons_ne_nil _ _

/-- No line on a solution is the line on the doubt: they begin with other letters. -/
theorem ne_doubtLine_of_mem_solutionLines {line : String} (h : line ∈ s.solutionLines) :
    line ≠ doubtLine := by
  have happend : ∀ {a b : String} {c : Char}, a.toList.head? = some c →
      (a ++ b).toList.head? = some c := by
    intro a b c hc
    rw [String.toList_append, List.head?_append, hc, Option.some_or]
  have hhead : line.toList.head? ∈ [some 'S', some 'R', some 'D', some 'É'] := by
    rw [solutionLines] at h
    rcases hs : s.solution with x | ⟨x, y⟩ | ⟨re, im⟩ | _ | _ <;>
      simp only [hs, List.mem_cons, List.not_mem_nil, or_false] at h
    · rw [h, happend (c := 'S') (by decide)]
      decide
    · rw [h, happend (happend (happend (c := 'R') (by decide)))]
      decide
    · rcases h with rfl | rfl
      · decide
      · rw [happend (happend (happend (c := 'R') (by decide)))]
        decide
    · rw [h]
      decide
    · rw [h]
      decide
  rintro rfl
  exact absurd hhead (by decide)

theorem getLast?_steps_eq_some_iff :
    s.steps.getLast? = some doubtLine ↔ s.isDoubtful = true := by
  rw [steps]
  split
  · next h => exact iff_of_true List.getLast?_concat h
  · next h =>
    refine iff_of_false (fun hlast ↦ ?_) h
    rw [List.append_nil, List.getLast?_append_of_ne_nil _ s.solutionLines_ne_nil] at hlast
    exact ne_doubtLine_of_mem_solutionLines (List.mem_of_getLast? hlast) rfl

/-! ## The warning -/

theorem isSome_warning : s.warning.isSome = s.isDoubtful := by
  rw [warning]
  split
  · next h => exact h.symm
  · next h => exact (Bool.not_eq_true _ ▸ h).symm

end SolvedEquation

/-! ## Two equations with the same samples -/

namespace Equation

variable {e e' : Equation} {s : SolvedEquation} {f0 f1 f2 : Float}

/-- Both equations have samples at 0, 1 and 2, and the same ones. -/
def AgreesWith (e e' : Equation) : Prop :=
  ∀ v ∈ [0.0, 1.0, 2.0], ∃ f, e.difference v = .ok f ∧ e'.difference v = .ok f

theorem AgreesWith.solve (h : e.AgreesWith e') :
    e.solve = .error .notFinite ∧ e'.solve = .error .notFinite ∨
      ∃ s, e.SolvesTo s ∧ e'.SolvesTo { s with
        equation := e', isDoubtful := s.model.isContradictedBy (e'.difference 3.0) } := by
  obtain ⟨f0, h0, h0'⟩ := h 0.0 (by simp)
  obtain ⟨f1, h1, h1'⟩ := h 1.0 (by simp)
  obtain ⟨f2, h2, h2'⟩ := h 2.0 (by simp)
  cases hmodel : (Model.fit negligible f0 f1 f2).solve with
  | error f =>
    have hf : f = .notFinite := Model.eq_notFinite_of_solve hmodel
    left
    rw [solve_of_samples h0 h1 h2, solve_of_samples h0' h1' h2', hmodel, hf]
    exact ⟨rfl, rfl⟩
  | ok solution =>
    exact .inr ⟨⟨e, f0, f1, f2, Model.fit negligible f0 f1 f2, solution,
      (Model.fit negligible f0 f1 f2).isContradictedBy (e.difference 3.0)⟩,
      ⟨rfl, h0, h1, h2, rfl, hmodel, rfl⟩, ⟨rfl, h0', h1', h2', rfl, hmodel, rfl⟩⟩

end Equation

/-- **The witness decides nothing but the doubt.** Equations that agree at 0, 1 and 2 are refused
together, as not finite, or solved with the same model and the same solution; all else of the two
results is the same too, except for the equation and the doubt, and that is the verdict of the
sample at 3. A doubt is the last line of the way, and a warning that names the degree of the model;
both go into the history. -/
theorem solveLine_witness :
    (∀ line line' e e', Equation.ofLine line = .ok e → Equation.ofLine line' = .ok e' →
      e.AgreesWith e' →
        solveLine line = .error .notFinite ∧ solveLine line' = .error .notFinite ∨
        ∃ s s', solveLine line = .ok s ∧ solveLine line' = .ok s' ∧
          s'.model = s.model ∧ s'.solution = s.solution ∧
          s' = { s with equation := e', isDoubtful := s'.isDoubtful } ∧
          s.isDoubtful = s.model.isContradictedBy (e.difference 3.0) ∧
          s'.isDoubtful = s.model.isContradictedBy (e'.difference 3.0)) ∧
    ∀ line s, solveLine line = .ok s →
      (s.isDoubtful = true ↔ s.steps.getLast? = some SolvedEquation.doubtLine) ∧
      (s.isDoubtful = true ↔ s.warning.isSome = true) ∧
      (∀ w, s.warning = some w → w = "f(3) contredit le modèle de degré "
        ++ toString s.model.degree ++ " : résultat possiblement faux") ∧
      ∃ o, Calculation.equation line = .ok o ∧ o.entry.steps = s.steps ∧
        o.entry.warning = s.warning := by
  constructor
  · intro line line' e e' he he' hagree
    rw [Equation.solveLine_eq_solve he, Equation.solveLine_eq_solve he']
    refine hagree.solve.imp id ?_
    rintro ⟨s, hs, hs'⟩
    exact ⟨s, _, Equation.solve_eq_ok_iff.mpr hs, Equation.solve_eq_ok_iff.mpr hs', rfl, rfl, rfl,
      hs.isDoubtful, rfl⟩
  · intro line s h
    refine ⟨SolvedEquation.getLast?_steps_eq_some_iff.symm, ?_, ?_, ?_⟩
    · rw [SolvedEquation.isSome_warning]
    · intro w hw
      rw [SolvedEquation.warning] at hw
      split at hw <;> cases hw
      rfl
    · rw [Calculation.equation, h]
      exact ⟨_, rfl, rfl, rfl⟩

/-- A square, and the same square with a term that is zero up to 2 and undefined at 3. -/
theorem solveLine_witness_pole :
    ∃ s s', solveLine "x*x=4".toList = .ok s ∧ solveLine "x*x+0/(x-3)=4".toList = .ok s' ∧
      s.solution = .real 2.0 (-2.0) ∧ s'.solution = s.solution ∧
      s.steps.getLast? ≠ some SolvedEquation.doubtLine ∧
      s'.steps.getLast? = some SolvedEquation.doubtLine := by
  have hline : Equation.ofLine "x*x=4".toList = .ok ⟨"x*x".toList, "4".toList⟩ :=
    eq_ok_of_toOption (by decide +kernel)
  have hline' : Equation.ofLine "x*x+0/(x-3)=4".toList = .ok ⟨"x*x+0/(x-3)".toList, "4".toList⟩ :=
    eq_ok_of_toOption (by decide +kernel)
  have hagree : Equation.AgreesWith ⟨"x*x".toList, "4".toList⟩
      ⟨"x*x+0/(x-3)".toList, "4".toList⟩ := by
    intro v hv
    simp only [List.mem_cons, List.not_mem_nil, or_false] at hv
    rcases hv with rfl | rfl | rfl
    · exact ⟨-4.0, eq_ok_of_toOption (by decide +kernel), eq_ok_of_toOption (by decide +kernel)⟩
    · exact ⟨-3.0, eq_ok_of_toOption (by decide +kernel), eq_ok_of_toOption (by decide +kernel)⟩
    · exact ⟨0.0, eq_ok_of_toOption (by decide +kernel), eq_ok_of_toOption (by decide +kernel)⟩
  have hsolved : (solveLine "x*x=4".toList).toOption.map (fun s ↦ (s.solution, s.isDoubtful))
      = some (.real 2.0 (-2.0), false) := by decide +kernel
  have hpole : (Equation.difference ⟨"x*x+0/(x-3)".toList, "4".toList⟩ 3.0).toOption = none := by
    decide +kernel
  obtain ⟨hboth, hdoubt⟩ := solveLine_witness
  rcases hboth _ _ _ _ hline hline' hagree with
    ⟨herror, -⟩ | ⟨s, s', hs, hs', -, hsolution, -, -, h⟩
  · rw [herror] at hsolved
    cases hsolved
  · rw [hs] at hsolved
    obtain ⟨hroots, hfalse⟩ := Prod.mk.inj (Option.some.inj hsolved)
    have htrue : s'.isDoubtful = true := by
      rw [h]
      cases hthree : Equation.difference ⟨"x*x+0/(x-3)".toList, "4".toList⟩ 3.0 with
      | error f => rfl
      | ok f =>
        rw [hthree] at hpole
        cases hpole
    refine ⟨s, s', hs, hs', hroots, hsolution, fun hlast ↦ ?_, (hdoubt _ _ hs').1.mp htrue⟩
    rw [(hdoubt _ _ hs).1.mpr hlast] at hfalse
    cases hfalse

end DeskCalculator
