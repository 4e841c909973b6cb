import DeskCalculator.Proofs.Equation.FiniteRoots
import DeskCalculator.Session.Basic

/-!
# The faults of the calculations

Only two faults leave the display as it is, and each has one origin. An answer that is not numeric
is refused where an answer is read: the sides of an equation are evaluated at numbers of the solver,
which are finite, so they never refuse a number. The variable is not allowed only under a
trigonometric function. Everything else that a calculation may be refused for replaces the display.
-/

namespace DeskCalculator

namespace Fault

variable {e : Fault}

/-- The fault puts the error marker on the display. -/
def ReplacesDisplay (e : Fault) : Prop := e.keepsDisplay = false

/-- The only faults that do not are an answer that is not numeric, and the variable. -/
theorem replacesDisplay_of_ne (hvariable : e ≠ .variableNotAllowed)
    (hnumeric : ∀ answer, e ≠ .notNumeric answer) : e.ReplacesDisplay := by
  cases e with
  | variableNotAllowed => exact absurd rfl hvariable
  | notNumeric answer => exact absurd rfl (hnumeric answer)
  | _ => rfl

theorem ReplacesDisplay.ne_variableNotAllowed (h : e.ReplacesDisplay) :
    e ≠ .variableNotAllowed := by
  rintro rfl
  cases h

end Fault

/-! ## Values of lines -/

theorem refusesOnly_finite (v : Float) : RefusesOnly Fault.ReplacesDisplay (finite v) := by
  intro e he
  rw [eq_notFinite_of_finite he]
  rfl

theorem refusesOnly_clean (line : List Char) :
    RefusesOnly Fault.ReplacesDisplay (clean line) := by
  rw [clean]
  split
  · exact refusesOnly_error rfl
  · split
    · exact refusesOnly_ok _
    · exact refusesOnly_error rfl

theorem refusesOnly_evaluate (s : List Char) : RefusesOnly Fault.ReplacesDisplay (evaluate s) := by
  rw [evaluate]
  split
  · exact refusesOnly_error rfl
  · exact refusesOnly_finite _

theorem refusesOnly_evaluateLine (line : List Char) :
    RefusesOnly Fault.ReplacesDisplay (evaluateLine line) :=
  (refusesOnly_clean line).bind fun s _ ↦ refusesOnly_evaluate s

theorem refusesOnly_evaluateAt {x : Float} (hx : x.isFinite = true) (line : List Char) :
    RefusesOnly Fault.ReplacesDisplay (evaluateAt line x) := by
  rw [evaluateAt, if_pos hx]
  exact refusesOnly_evaluateLine _

theorem refusesOnly_leadingValue (line : List Char) :
    RefusesOnly Fault.ReplacesDisplay (leadingValue line) := by
  rw [leadingValue]
  split
  · split
    · exact refusesOnly_finite _
    · exact refusesOnly_error rfl
  · exact refusesOnly_error rfl

theorem refusesOnly_currentValue (line : List Char) :
    RefusesOnly Fault.ReplacesDisplay (currentValue line) := by
  rw [currentValue]
  split
  · exact refusesOnly_evaluate _
  · exact refusesOnly_leadingValue line

/-! ## Equations -/

namespace Equation

theorem refusesOnly_ofLine (line : List Char) :
    RefusesOnly Fault.ReplacesDisplay (ofLine line) := by
  rw [ofLine]
  split
  · exact refusesOnly_error rfl
  · simp only
    split
    · exact refusesOnly_error rfl
    · split
      · exact refusesOnly_error rfl
      · split
        · exact refusesOnly_ok _
        · exact refusesOnly_error rfl

theorem refusesOnly_difference (e : Equation) {x : Float} (hx : x.isFinite = true) :
    RefusesOnly Fault.ReplacesDisplay (e.difference x) := by
  refine (refusesOnly_evaluateAt hx e.left).bind fun l _ ↦ ?_
  exact (refusesOnly_evaluateAt hx e.right).bind fun r _ ↦ refusesOnly_finite _

theorem refusesOnly_solve (e : Equation) : RefusesOnly Fault.ReplacesDisplay e.solve := by
  refine (e.refusesOnly_difference (by decide +kernel)).bind fun f0 _ ↦ ?_
  refine (e.refusesOnly_difference (by decide +kernel)).bind fun f1 _ ↦ ?_
  refine (e.refusesOnly_difference (by decide +kernel)).bind fun f2 _ ↦ ?_
  refine RefusesOnly.bind (fun f hf ↦ ?_) fun solution _ ↦ refusesOnly_ok _
  rw [Model.eq_notFinite_of_solve hf]
  rfl

end Equation

theorem refusesOnly_solveLine (line : List Char) :
    RefusesOnly Fault.ReplacesDisplay (solveLine line) :=
  (Equation.refusesOnly_ofLine line).bind fun e _ ↦ e.refusesOnly_solve

/-! ## Functions of the number on the display -/

theorem refusesOnly_squareRoot (v : Float) :
    RefusesOnly Fault.ReplacesDisplay (squareRoot v) := by
  rw [squareRoot]
  split
  · exact refusesOnly_error rfl
  · exact refusesOnly_finite _

theorem TrigFunction.refusesOnly_apply (f : TrigFunction) (degrees : Float) :
    RefusesOnly Fault.ReplacesDisplay (f.apply degrees) := by
  cases f with
  | sine => exact refusesOnly_finite _
  | cosine => exact refusesOnly_finite _
  | tangent =>
    simp only [apply]
    split
    · exact refusesOnly_error rfl
    · exact refusesOnly_finite _

theorem refusesOnly_nthRoot (v : Float) (n : Nat) :
    RefusesOnly (· ≠ .variableNotAllowed) (nthRoot v n) := by
  rw [nthRoot]
  split
  · exact refusesOnly_error nofun
  · split
    · exact refusesOnly_error nofun
    · exact (refusesOnly_finite _).mono fun _ he ↦ he.ne_variableNotAllowed

/-! ## Answers -/

theorem refusesOnly_readAnswer (answer : List Char) :
    RefusesOnly (· ≠ .variableNotAllowed) (readAnswer answer) := by
  simp only [readAnswer]
  split
  · exact refusesOnly_error nofun
  · exact refusesOnly_ok _

theorem refusesOnly_readDegree (answer : List Char) :
    RefusesOnly (· ≠ .variableNotAllowed) (readDegree answer) := by
  simp only [readDegree]
  split
  · exact refusesOnly_ok _
  · exact refusesOnly_error nofun

/-- The number that is answered may be too large; then the answer is refused as not numeric. -/
theorem refusesOnly_evaluateAt_answer (line : List Char) (x : Float) :
    RefusesOnly (· ≠ .variableNotAllowed) (evaluateAt line x) := by
  by_cases hx : x.isFinite = true
  · exact (refusesOnly_evaluateAt hx line).mono fun _ he ↦ he.ne_variableNotAllowed
  · rw [evaluateAt, if_neg hx]
    exact refusesOnly_error nofun

/-! ## Calculations -/

namespace Calculation

theorem refusesOnly_plain (line : List Char) : RefusesOnly Fault.ReplacesDisplay (plain line) :=
  (refusesOnly_evaluateLine line).bind fun _ _ ↦ refusesOnly_ok _

theorem refusesOnly_equation (line : List Char) :
    RefusesOnly Fault.ReplacesDisplay (equation line) :=
  (refusesOnly_solveLine line).bind fun _ _ ↦ refusesOnly_ok _

theorem refusesOnly_squareRoot (line : List Char) :
    RefusesOnly Fault.ReplacesDisplay (squareRoot line) := by
  refine (refusesOnly_currentValue line).bind fun v _ ↦ ?_
  exact (DeskCalculator.refusesOnly_squareRoot v).bind fun r _ ↦ refusesOnly_ok _

theorem refusesOnly_trigonometric (line : List Char) (f : TrigFunction) :
    RefusesOnly (fun e ↦ e = .variableNotAllowed ∨ e.ReplacesDisplay) (trigonometric line f) := by
  rw [trigonometric]
  split
  · exact refusesOnly_error (.inl rfl)
  · refine RefusesOnly.mono ?_ fun e (he : e.ReplacesDisplay) ↦ .inr he
    refine (refusesOnly_currentValue line).bind fun v _ ↦ ?_
    exact (f.refusesOnly_apply v).bind fun r _ ↦ refusesOnly_ok _

theorem refusesOnly_withVariable (line answer : List Char) :
    RefusesOnly (· ≠ .variableNotAllowed) (withVariable line answer) := by
  refine (refusesOnly_readAnswer answer).bind fun x _ ↦ ?_
  exact (refusesOnly_evaluateAt_answer line x).bind fun v _ ↦ refusesOnly_ok _

theorem refusesOnly_nthRoot (line answer : List Char) :
    RefusesOnly (· ≠ .variableNotAllowed) (nthRoot line answer) := by
  refine (refusesOnly_readDegree answer).bind fun n _ ↦ ?_
  refine RefusesOnly.bind ?_ fun v _ ↦ ?_
  · exact (refusesOnly_currentValue line).mono fun _ he ↦ he.ne_variableNotAllowed
  · exact (DeskCalculator.refusesOnly_nthRoot v n).bind fun r _ ↦ refusesOnly_ok _

end Calculation

theorem Session.refusesOnly_answered (line : List Char) (p : Prompt) :
    RefusesOnly (· ≠ .variableNotAllowed) (answered line p) := by
  rw [answered]
  split
  · exact Calculation.refusesOnly_withVariable line p.answer
  · exact Calculation.refusesOnly_nthRoot line p.answer

end DeskCalculator
