import DeskCalculator.Calculation
import DeskCalculator.Proofs.Formula.SignedNumber
import DeskCalculator.Proofs.Number.Units
import DeskCalculator.Proofs.Number.Stored

/-!
# What is shown can be typed

The text of a finite result is a line that cleaning leaves alone and whose value is the number it
reads as. That number is shown with the same text, so calculating what is on the display does not
change the display. A whole number is shown exactly.
-/

namespace DeskCalculator

open Float.Model (UnpackedFloat)

namespace Double

variable {x y : Float}

/-! ## The code that is shown -/

theorem isWhole_iff (x : Float) : isWhole x = true ↔ BinaryFormat.double.IsWhole (code x) := by
  rw [isWhole, beq_iff_eq, grains, Nat.pow_eq, BinaryFormat.IsWhole, Nat.dvd_iff_mod_eq_zero]

theorem shownCode_of_isWhole (h : isWhole x = true) : shownCode x = code x := if_pos h

/-- A number that is not whole is rounded to the places of a result and read back. -/
theorem shownCode_of_not_isWhole (h : isWhole x = false) :
    shownCode x = BinaryFormat.double.rounded (10 ^ resultPlaces) (code x) := by
  have hplaces : resultPlaces ≤ BinaryFormat.double.grain := by decide
  rw [shownCode, h, if_neg Bool.false_ne_true, BinaryFormat.rounded,
    ← BinaryFormat.double.roundHalfEven_exact hplaces, roundedMagnitude, Nat.pow_eq, Nat.pow_eq]

theorem shownCode_lt (hx : x.isFinite = true) : shownCode x < BinaryFormat.double.infinity := by
  cases hwhole : isWhole x with
  | true =>
    rw [shownCode_of_isWhole hwhole]
    exact (isFinite_iff x).mp hx
  | false =>
    have hfraction : ¬ BinaryFormat.double.IsWhole (code x) := by
      rw [← isWhole_iff, hwhole]
      exact Bool.false_ne_true
    rw [shownCode_of_not_isWhole hwhole]
    exact Nat.lt_of_le_of_lt (BinaryFormat.double.rounded_le (by decide) hfraction) (by decide)

/-- **The number that is shown is shown as itself.** -/
theorem shownCode_of_code_eq (hx : x.isFinite = true) (hy : code y = shownCode x) :
    shownCode y = shownCode x := by
  cases hwhole : isWhole y with
  | true => rw [shownCode_of_isWhole hwhole, hy]
  | false =>
    have hfraction : ¬ BinaryFormat.double.IsWhole (shownCode x) := by
      rw [← hy, ← isWhole_iff, hwhole]
      exact Bool.false_ne_true
    -- a whole number would be shown as itself, and so would be whole again
    have hwhole' : isWhole x = false := by
      rw [← Bool.not_eq_true]
      intro h
      rw [shownCode_of_isWhole h, ← isWhole_iff] at hfraction
      exact hfraction h
    have hfinite := shownCode_lt hx
    rw [shownCode_of_not_isWhole hwhole, hy]
    rw [shownCode_of_not_isWhole hwhole'] at hfraction hfinite ⊢
    exact BinaryFormat.double.rounded_rounded (s := 33) (by decide) (by decide) (by decide)
      (by decide) hfinite hfraction

/-! ## The text -/

/-- Whether a result is shown with a minus sign. -/
def isShownNegative (x : Float) : Bool := isNegative x && shownCode x != 0

/-- The literal that a result is shown with, its sign aside. -/
def shownLiteral (x : Float) : Literal :=
  written BinaryFormat.double.grain (BinaryFormat.double.shortest (shownCode x))

theorem resultText_of_isFinite (hx : x.isFinite = true) :
    resultText x = sign (isShownNegative x) ++ (shownLiteral x).text := by
  rw [resultText, not_isNaN_of_isFinite hx, if_neg Bool.false_ne_true, if_pos hx, isShownNegative,
    shownLiteral, text_written, magnitudeText]

/-- The number that is shown. -/
def shown (x : Float) : Float := ofCode (isShownNegative x) (shownCode x)

theorem value_signed_shownLiteral (hx : x.isFinite = true) :
    ((shownLiteral x).signed (isShownNegative x)).value = shown x := by
  have hcode : (shownLiteral x).numeral.code .double = shownCode x :=
    code_written_shortest (by decide) (Nat.le_of_lt (shownCode_lt hx))
  rw [Literal.value_signed, hcode, shown]

theorem isFinite_shown (hx : x.isFinite = true) : (shown x).isFinite = true :=
  isFinite_ofCode _ (shownCode_lt hx)

theorem resultText_shown (hx : x.isFinite = true) : resultText (shown x) = resultText x := by
  have hle := Nat.le_of_lt (shownCode_lt hx)
  have hcode : shownCode (shown x) = shownCode x := shownCode_of_code_eq hx (code_ofCode _ hle)
  have hsign : isShownNegative (shown x) = isShownNegative x := by
    rw [isShownNegative, hcode, shown, isNegative_ofCode _ hle, isShownNegative, Bool.and_assoc,
      Bool.and_self]
  rw [resultText_of_isFinite hx, resultText_of_isFinite (isFinite_shown hx), hsign, shownLiteral,
    hcode, shownLiteral]

/-! ## Whole numbers -/

theorem beq_self (hx : x.isFinite = true) : (x == x) = true := by
  have hbeq : (x == x) = (parts x).beq (parts x) := rfl
  rw [isFinite_eq] at hx
  rw [hbeq]
  rcases eq_zero_or_eq_finite hx with ⟨s, h⟩ | ⟨s, m, e, hm, h⟩
  · rw [h]
    cases s <;> rfl
  · rw [h]
    cases s <;> simp [UnpackedFloat.beq, UnpackedFloat.compare]

@[simp] theorem beq_ofCode_zero (b b' : Bool) : (ofCode b 0 == ofCode b' 0) = true := by
  cases b <;> cases b' <;> decide +kernel

/-- **A whole number is shown exactly**, except that a zero loses its sign. -/
theorem beq_shown (hx : x.isFinite = true) (hwhole : isWhole x = true) : (shown x == x) = true := by
  have hcode := shownCode_of_isWhole hwhole
  by_cases hzero : code x = 0
  · have h := beq_ofCode_zero (isShownNegative x) (isNegative x)
    rw [← hzero, ofCode_code, ← hcode] at h
    exact h
  · have hsame : shown x = x := by
      have hsign : isShownNegative x = isNegative x := by
        rw [isShownNegative, hcode, bne_iff_ne.mpr hzero, Bool.and_true]
      simp [shown, hsign, hcode]
    rw [hsame]
    exact beq_self hx

/-! ## Lines -/

theorem evaluateLine_resultText (hx : x.isFinite = true) :
    evaluateLine (resultText x) = .ok (shown x) := by
  rw [resultText_of_isFinite hx, Literal.evaluateLine_sign_append, value_signed_shownLiteral hx]
  exact finite_eq_ok_iff.mpr ⟨isFinite_shown hx, rfl⟩

/-- **What is shown is a line with the same result.** The text of a finite number passes cleaning
unchanged. It is a numeral, its value as a line is the value of the numeral, and that is shown with
the same text, so that calculating the line shows the line again. A whole number has not changed. -/
theorem resultText_stable {v : Float} (hv : v.isFinite = true) :
    clean (resultText v) = .ok (resultText v) ∧
      ∃ n, Numeral.leading? Char.isDigit (resultText v) = some (n, []) ∧
        evaluateLine (resultText v) = .ok n.value ∧
        resultText n.value = resultText v ∧
        (∃ o, Calculation.plain (resultText v) = .ok o ∧ o.display = resultText v) ∧
        (isWhole v = true → (n.value == v) = true) := by
  have hvalue := value_signed_shownLiteral hv
  have hline := evaluateLine_resultText hv
  refine ⟨?_, (shownLiteral v).signed (isShownNegative v), ?_, ?_, ?_, ?_, ?_⟩
  · rw [resultText_of_isFinite hv]
    exact (Literal.isCleaned_sign_append _ _).clean_eq
  · rw [resultText_of_isFinite hv]
    exact Literal.leading?_sign_append _ _
  · rw [hvalue, hline]
  · rw [hvalue, resultText_shown hv]
  · refine ⟨.number (recorded (resultText v)) (shown v), ?_, resultText_shown hv⟩
    rw [Calculation.plain, hline]
    rfl
  · rw [hvalue]
    exact beq_shown hv

/-- A third is shown rounded, and what is shown is no longer a third but is shown again; a number
with more digits than it can keep apart is shown with all of them, and is that number. -/
theorem resultText_stable_third :
    ((-1.0 / 3.0 : Float).isFinite = true ∧ resultText (-1.0 / 3.0) = "-0.3333333333".toList ∧
      clean "-0.3333333333".toList = .ok "-0.3333333333".toList ∧
      ∃ n, Numeral.leading? Char.isDigit "-0.3333333333".toList = some (n, []) ∧
        evaluateLine "-0.3333333333".toList = .ok n.value ∧
        resultText n.value = "-0.3333333333".toList ∧
        ∃ o, Calculation.plain "-0.3333333333".toList = .ok o ∧
          o.display = "-0.3333333333".toList) ∧
    ((1e22 : Float).isFinite = true ∧ isWhole 1e22 = true ∧
      resultText 1e22 = "10000000000000000000000".toList ∧
      ∃ n, evaluateLine "10000000000000000000000".toList = .ok n ∧ (n == 1e22) = true) := by
  have hthird : (-1.0 / 3.0 : Float).isFinite = true := by decide +kernel
  have hthirdText : resultText (-1.0 / 3.0) = "-0.3333333333".toList := by decide +kernel
  have hlarge : (1e22 : Float).isFinite = true := by decide +kernel
  have hwhole : isWhole 1e22 = true := by decide +kernel
  have hlargeText : resultText 1e22 = "10000000000000000000000".toList := by decide +kernel
  obtain ⟨hclean, n, hread, hvalue, hshown, hplain, -⟩ := resultText_stable hthird
  obtain ⟨-, m, -, hvalue', -, -, hexact⟩ := resultText_stable hlarge
  rw [hthirdText] at hclean hread hvalue hshown hplain
  rw [hlargeText] at hvalue'
  exact ⟨⟨hthird, hthirdText, hclean, n, hread, hvalue, hshown, hplain⟩,
    hlarge, hwhole, hlargeText, m.value, hvalue', hexact hwhole⟩

end Double

end DeskCalculator
