import DeskCalculator.Calculation
import DeskCalculator.Proofs.Display.Characters
import DeskCalculator.Proofs.Formula.Admitted

/-!
# The display without its commas

Separating thousands adds commas and changes nothing else, whatever the digits of a line are and
however its points are placed. So a line without commas is read off its display by leaving the
commas out, and so is the history of a calculation: no line with a comma has a value, and no result
is written with one.
-/

namespace DeskCalculator

/-- A text without its commas. -/
def withoutCommas (s : List Char) : List Char := s.filter (· != ',')

@[simp] theorem withoutCommas_nil : withoutCommas [] = [] := rfl

@[simp] theorem withoutCommas_cons (c : Char) (s : List Char) :
    withoutCommas (c :: s) = if c = ',' then withoutCommas s else c :: withoutCommas s := by
  by_cases hc : c = ',' <;> simp [withoutCommas, hc]

@[simp] theorem withoutCommas_append (s t : List Char) :
    withoutCommas (s ++ t) = withoutCommas s ++ withoutCommas t :=
  List.filter_append s t

theorem withoutCommas_eq_self {s : List Char} (h : ',' ∉ s) : withoutCommas s = s := by
  refine List.filter_eq_self.mpr fun c hc ↦ ?_
  rw [bne_iff_ne]
  rintro rfl
  exact h hc

/-! ## Separating thousands -/

@[simp] theorem withoutCommas_groupDigits (s : List Char) :
    withoutCommas (groupDigits s) = withoutCommas s := by
  induction s with
  | nil => rfl
  | cons c s ih =>
    rw [groupDigits]
    split <;> simp [ih]

@[simp] theorem withoutCommas_groupUnsigned (s : List Char) :
    withoutCommas (groupUnsigned s) = withoutCommas s := by
  rw [groupUnsigned, withoutCommas_append, withoutCommas_groupDigits, ← withoutCommas_append,
    List.takeWhile_append_dropWhile]

@[simp] theorem withoutCommas_group (s : List Char) : withoutCommas (group s) = withoutCommas s := by
  unfold group
  split
  · split <;> simp
  · split <;> simp

@[simp] theorem withoutCommas_groupNumbers (s : List Char) :
    withoutCommas (groupNumbers s) = withoutCommas s := by
  fun_induction groupNumbers s with
  | case1 => rfl
  | case2 c s hc ih =>
    rw [withoutCommas_append, withoutCommas_group, ih, ← withoutCommas_append,
      leadingNumber_append]
  | case3 c s hc ih => simp [ih]

/-- A line that is not empty is shown with its own characters and commas. -/
theorem withoutCommas_displayedLine {line : List Char} (h : line ≠ []) :
    withoutCommas (displayedLine line) = withoutCommas line := by
  rw [displayedLine, List.isEmpty_eq_false_iff.mpr h, if_neg Bool.false_ne_true]
  exact withoutCommas_groupNumbers line

/-! ## Lines that have a value -/

theorem ne_nil_and_comma_notMem_of_evaluateLine {line : List Char} {v : Float}
    (h : evaluateLine line = .ok v) : line ≠ [] ∧ ',' ∉ line := by
  rw [evaluateLine] at h
  obtain ⟨s, hclean, -⟩ := exists_of_bind_eq_ok h
  constructor
  · rintro rfl
    have hempty : expandPercentages (dropEndWhile isUnfinished (spellOut [])) = [] := by simp
    rw [clean, hempty] at hclean
    cases hclean
  · intro hcomma
    exact absurd (isLineChar_of_clean hclean hcomma) (by decide)

theorem comma_notMem_resultText (x : Float) : ',' ∉ Double.resultText x := by
  have hsign : ∀ b, ',' ∉ Double.sign b := by decide
  have hmagnitude : ∀ code, ',' ∉ Double.magnitudeText code := by
    intro code h
    rw [Double.magnitudeText, ← text_written] at h
    rcases Literal.isDigit_or_eq_point _ ',' h with h | h
    · exact absurd h (by decide)
    · exact absurd h (by decide)
  rw [Double.resultText]
  split
  · decide
  · split
    · exact List.not_mem_append (hsign _) (hmagnitude _)
    · exact List.not_mem_append (hsign _) (by decide)

theorem withoutCommas_number (calculation : String) (v : Float) :
    withoutCommas (Outcome.number calculation v).entry.calculation.toList
      = withoutCommas calculation.toList ++ " = ".toList
        ++ (Outcome.number calculation v).display := by
  simp [Outcome.number, withoutCommas_eq_self (comma_notMem_resultText v)]

/-! ## Nothing is lost -/

/-- **The display loses nothing.** A line without commas is its display without the commas, so two
lines are not displayed alike; and the history of a calculation is the line and the result. -/
theorem displayedLine_lossless :
    (∀ line : List Char, line ≠ [] → ',' ∉ line → withoutCommas (displayedLine line) = line) ∧
    (∀ a b : List Char, a ≠ [] → b ≠ [] → ',' ∉ a → ',' ∉ b → a ≠ b →
      displayedLine a ≠ displayedLine b) ∧
    ∀ (line : List Char) (o : Outcome), Calculation.plain line = .ok o →
      withoutCommas o.entry.calculation.toList = line ++ " = ".toList ++ o.display := by
  have hline : ∀ line : List Char, line ≠ [] → ',' ∉ line →
      withoutCommas (displayedLine line) = line :=
    fun line h hcomma ↦ (withoutCommas_displayedLine h).trans (withoutCommas_eq_self hcomma)
  refine ⟨hline, fun a b ha hb hacomma hbcomma hne h ↦ hne ?_, fun line o h ↦ ?_⟩
  · rw [← hline a ha hacomma, h, hline b hb hbcomma]
  · rw [Calculation.plain] at h
    obtain ⟨v, hv, ho⟩ := exists_of_bind_eq_ok h
    obtain rfl := Except.ok.inj ho
    obtain ⟨hne, hcomma⟩ := ne_nil_and_comma_notMem_of_evaluateLine hv
    rw [withoutCommas_number, recorded, String.toList_ofList, hline line hne hcomma]

/-- A number in another script is left alone, and a sum is recorded with all its digits. -/
theorem displayedLine_lossless_sum :
    displayedLine "४५६७+1234.5678".toList = "४५६७+1,234.5678".toList ∧
    withoutCommas (displayedLine "४५६७+1234.5678".toList) = "४५६७+1234.5678".toList ∧
    displayedLine "1234".toList ≠ displayedLine "12.34".toList ∧
    ∃ o, Calculation.plain "1234567+1".toList = .ok o ∧
      withoutCommas o.entry.calculation.toList = "1234567+1 = ".toList ++ o.display := by
  obtain ⟨hline, hdistinct, hrecord⟩ := displayedLine_lossless
  have hplain : Calculation.plain "1234567+1".toList
      = .ok ⟨"1234568".toList, ⟨"1,234,567+1 = 1,234,568", [], none⟩⟩ :=
    eq_ok_of_toOption (by decide +kernel)
  refine ⟨by decide +kernel, hline _ (by decide) (by decide), ?_, _, hplain, hrecord _ _ hplain⟩
  exact hdistinct _ _ (by decide) (by decide) (by decide) (by decide) (by decide)

end DeskCalculator
