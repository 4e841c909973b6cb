import DeskCalculator.Preferences.Stored
import DeskCalculator.Proofs.Display.Characters
import DeskCalculator.Proofs.Formula.Admitted
import DeskCalculator.Proofs.Keypad.Line
import DeskCalculator.Proofs.Session.Effect

/-!
# The preview

The preview is kept beside the line and is not computed again when it is shown. It is current all
the same: each action either takes the preview of the line it leaves, or leaves line and preview as
they are, or empties the preview.

A preview that is not empty promises what the key `=` will do. The preview and the key read the line
in different ways, but a line with a preview can be cleaned, so it has no equals sign, and it has no
variable; such a line is evaluated, and to the value that the preview shows.
-/

namespace DeskCalculator

/-! ## What is left on the line -/

theorem Marker.word_ne_nil (m : Marker) : m.word ≠ [] := by
  cases m <;> exact List.cons_ne_nil _ _

theorem Solution.display_ne_nil (s : Solution) : s.display ≠ [] := by
  cases s with
  | unique x => exact Double.resultText_ne_nil x
  | real x y => exact Double.resultText_ne_nil x
  | conjugate re im => exact Double.resultText_ne_nil re
  | none => exact Marker.noSolution.word_ne_nil
  | every => exact Marker.infinite.word_ne_nil

/-- There is something on the display. -/
def Outcome.IsShown (o : Outcome) : Prop := o.display ≠ []

theorem Outcome.isShown_number (calculation : String) (v : Float) :
    (Outcome.number calculation v).IsShown :=
  Double.resultText_ne_nil v

namespace Calculation

variable (line answer : List Char)

theorem resultsIn_plain : ResultsIn Outcome.IsShown (plain line) :=
  .bind fun v ↦ resultsIn_ok (Outcome.isShown_number _ v)

theorem resultsIn_withVariable : ResultsIn Outcome.IsShown (withVariable line answer) :=
  .bind fun _ ↦ .bind fun v ↦ resultsIn_ok (Outcome.isShown_number _ v)

theorem resultsIn_equation : ResultsIn Outcome.IsShown (equation line) :=
  .bind fun s ↦ resultsIn_ok s.solution.display_ne_nil

theorem resultsIn_squareRoot : ResultsIn Outcome.IsShown (squareRoot line) :=
  .bind fun _ ↦ .bind fun r ↦ resultsIn_ok (Outcome.isShown_number _ r)

theorem resultsIn_nthRoot : ResultsIn Outcome.IsShown (nthRoot line answer) :=
  .bind fun _ ↦ .bind fun _ ↦ .bind fun r ↦ resultsIn_ok (Outcome.isShown_number _ r)

theorem resultsIn_trigonometric (f : TrigFunction) :
    ResultsIn Outcome.IsShown (trigonometric line f) := by
  rw [trigonometric]
  split
  · exact resultsIn_error _
  · exact .bind fun _ ↦ .bind fun r ↦ resultsIn_ok (Outcome.isShown_number _ r)

end Calculation

/-! ## The preview and the key `=` -/

variable {line : List Char}

theorem exists_of_preview_ne_nil (h : preview line ≠ []) :
    ∃ s v, mentionsVariable line = false ∧ clean line = .ok s ∧ evaluate s = .ok v ∧
      preview line = '=' :: ' ' :: group (Double.resultText v) := by
  rw [preview] at h ⊢
  cases hvariable : mentionsVariable line with
  | true =>
    rw [hvariable] at h
    exact absurd rfl h
  | false =>
    rw [hvariable, if_neg Bool.false_ne_true] at h
    cases hclean : clean line with
    | error e =>
      rw [hclean] at h
      exact absurd rfl h
    | ok s =>
      rw [hclean] at h
      simp only at h
      by_cases hzero : (s == ['0']) = true
      · rw [if_pos hzero] at h
        exact absurd rfl h
      · rw [if_neg hzero] at h
        cases hvalue : evaluate s with
        | error e =>
          rw [hvalue] at h
          exact absurd rfl h
        | ok v =>
          refine ⟨s, v, rfl, rfl, hvalue, ?_⟩
          simp only [if_neg hzero, hvalue]
          rfl

theorem not_contains_equals_of_clean {s : List Char} (h : clean line = .ok s) :
    line.contains '=' = false := by
  rw [List.contains_eq_mem, decide_eq_false_iff_not]
  intro hmem
  exact absurd (isLineChar_of_clean h hmem) (by decide)

/-- A line with a preview is evaluated by the key `=`, to the value of the preview. -/
theorem exists_value_of_preview (h : preview line ≠ []) :
    ∃ v, Kind.ofLine line = .plain ∧ evaluateLine line = .ok v ∧
      preview line = '=' :: ' ' :: group (Double.resultText v) := by
  obtain ⟨s, v, hvariable, hclean, hvalue, hshown⟩ := exists_of_preview_ne_nil h
  refine ⟨v, ?_, ?_, hshown⟩
  · rw [Kind.ofLine, not_contains_equals_of_clean hclean, hvariable]
    rfl
  · rw [evaluateLine, hclean]
    exact hvalue

namespace Session

variable {s : Session} {r : Except Fault Outcome}

/-! ## Sessions whose preview is current -/

/-- The line is not empty, and the preview is empty or the preview of the line. -/
structure IsCurrent (s : Session) : Prop where
  line_ne_nil : s.line ≠ []
  preview : s.preview = [] ∨ s.preview = DeskCalculator.preview s.line

theorem isCurrent_edit (s : Session) {line : List Char} (h : line ≠ []) :
    (s.edit line).IsCurrent :=
  ⟨h, .inr rfl⟩

theorem IsCurrent.record (hs : s.IsCurrent) (hr : ResultsIn Outcome.IsShown r) :
    (s.record r).IsCurrent := by
  cases r with
  | ok o => exact ⟨hr o rfl, .inl rfl⟩
  | error e =>
    rw [Session.record]
    split
    · exact ⟨hs.line_ne_nil, hs.preview⟩
    · exact ⟨Marker.error.word_ne_nil, .inl rfl⟩

theorem resultsIn_answered (line : List Char) (p : Prompt) :
    ResultsIn Outcome.IsShown (answered line p) := by
  rw [answered]
  split
  · exact Calculation.resultsIn_withVariable line p.answer
  · exact Calculation.resultsIn_nthRoot line p.answer

/-- An action leaves the preview current. -/
theorem IsCurrent.perform (hs : s.IsCurrent) (a : Action) : (s.perform a).IsCurrent := by
  cases a with
  | append c => exact s.isCurrent_edit (Buffer.append_ne_nil hs.line_ne_nil c)
  | backspace => exact s.isCurrent_edit (Buffer.backspace_ne_nil s.line)
  | clear => exact ⟨List.cons_ne_nil _ _, .inl rfl⟩
  | calculate =>
    rw [Session.perform, calculate]
    split
    · exact hs.record (Calculation.resultsIn_equation s.line)
    · exact ⟨hs.line_ne_nil, hs.preview⟩
    · exact hs.record (Calculation.resultsIn_plain s.line)
  | squareRoot => exact hs.record (Calculation.resultsIn_squareRoot s.line)
  | trigonometric f => exact hs.record (Calculation.resultsIn_trigonometric s.line f)
  | submit =>
    rw [Session.perform, submit]
    split
    · exact hs
    · next p _ =>
      have hclosed : { s with prompt := none }.IsCurrent := ⟨hs.line_ne_nil, hs.preview⟩
      exact hclosed.record (resultsIn_answered s.line p)
  | nthRoot | cancel | requestClearHistory | confirmClearHistory | cancelClearHistory
  | toggleTheme | chooseScale v => exact ⟨hs.line_ne_nil, hs.preview⟩

theorem IsCurrent.execute (hs : s.IsCurrent) (a : Action) : (s.execute a).IsCurrent := by
  by_cases hheld : s.HoldsBack a
  · rwa [execute_of_holdsBack hheld]
  · rw [execute_eq_perform hheld]
    exact hs.perform a

/-! ## Runs -/

/-- What a session takes from its user: an action, or a text in the field of the open prompt. -/
inductive Input where
  | act (a : Action)
  | answer (text : List Char)

/-- A session with no history, and the preferences that are stored. -/
def start (stored : Option (List Char)) : Session := { preferences := Preferences.load stored }

/-- The session after an input. -/
def receive (s : Session) : Input → Session
  | .act a => s.execute a
  | .answer text => s.setAnswer text

/-- The session after inputs in order. -/
def run (s : Session) (inputs : List Input) : Session := inputs.foldl receive s

theorem isCurrent_start (stored : Option (List Char)) : (start stored).IsCurrent :=
  ⟨List.cons_ne_nil _ _, .inl rfl⟩

theorem IsCurrent.receive (hs : s.IsCurrent) (i : Input) : (s.receive i).IsCurrent := by
  cases i with
  | act a => exact hs.execute a
  | answer text => exact ⟨hs.line_ne_nil, hs.preview⟩

theorem IsCurrent.run (hs : s.IsCurrent) (inputs : List Input) : (s.run inputs).IsCurrent := by
  induction inputs generalizing s with
  | nil => exact hs
  | cons i inputs ih => exact ih (hs.receive i)

theorem IsCurrent.exists_calculation (hs : s.IsCurrent) (hpreview : s.preview ≠ [])
    (hprompt : s.prompt = none) :
    ∃ v, s.calculation? .calculate = some (.ok (.number (recorded s.line) v)) ∧
      s.preview = '=' :: ' ' :: group (Double.resultText v) := by
  have hline : s.preview = DeskCalculator.preview s.line := hs.preview.resolve_left hpreview
  rw [hline] at hpreview
  obtain ⟨v, hkind, hvalue, hshown⟩ := exists_value_of_preview hpreview
  refine ⟨v, ?_, hline.trans hshown⟩
  rw [calculation?, if_neg (not_holdsBack_of_prompt hprompt), started, hkind]
  simp only [Calculation.plain, hvalue]
  rfl

/-- The preview of the session can be relied on: it is current, and if it is not empty, the key `=`
records the value it shows and asks for nothing. -/
structure HasSoundPreview (s : Session) : Prop extends s.IsCurrent where
  calculate : s.preview ≠ [] → s.prompt = none → ∃ o, s.calculation? .calculate = some (.ok o) ∧
    (s.execute .calculate).prompt = none ∧
    (s.execute .calculate).history = s.history ++ [o.entry] ∧
    s.preview = '=' :: ' ' :: group (s.execute .calculate).line

theorem IsCurrent.hasSoundPreview (hs : s.IsCurrent) : s.HasSoundPreview where
  toIsCurrent := hs
  calculate := by
    intro hpreview hprompt
    obtain ⟨v, hcalculation, hshown⟩ := hs.exists_calculation hpreview hprompt
    have hrecorded := isRecorded_of_calculation? hcalculation
    refine ⟨_, hcalculation, ?_, hrecorded.history, ?_⟩
    · rw [execute_of_calculation? hcalculation, prompt_record]
    · rw [hshown, hrecorded.line]
      rfl

/-- The preview can be relied on in every session that a run leads to, whatever the actions and the
answers of the run are. -/
theorem hasSoundPreview_run (stored : Option (List Char)) (inputs : List Input) :
    ((start stored).run inputs).HasSoundPreview :=
  ((isCurrent_start stored).run inputs).hasSoundPreview

/-- A sum as it is typed. -/
def sumKeys : List Input := ['9', '9', '9', '+', '1'].map (.act <| .append ·)

/-- The sum has a preview, with its digits in groups, and the key `=` shows the number of the preview
and records it. -/
theorem hasSoundPreview_run_sum : ∃ o,
    ((start none).run sumKeys).preview = "= 1,000".toList ∧
    ((start none).run sumKeys).calculation? .calculate = some (.ok o) ∧
    (((start none).run sumKeys).execute .calculate).prompt = none ∧
    (((start none).run sumKeys).execute .calculate).history = [o.entry] ∧
    "= 1,000".toList
      = '=' :: ' ' :: group (((start none).run sumKeys).execute .calculate).line := by
  have hpreview : ((start none).run sumKeys).preview = "= 1,000".toList := by decide +kernel
  have hprompt : ((start none).run sumKeys).prompt = none := rfl
  have hhistory : ((start none).run sumKeys).history = [] := rfl
  have hne : ((start none).run sumKeys).preview ≠ [] := by
    rw [hpreview]
    decide
  obtain ⟨o, hcalculation, hasked, hrecorded, hshown⟩ :=
    (hasSoundPreview_run none sumKeys).calculate hne hprompt
  rw [hhistory] at hrecorded
  exact ⟨o, hpreview, hcalculation, hasked, hrecorded, hpreview ▸ hshown⟩

end Session

end DeskCalculator
