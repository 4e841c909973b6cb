import DeskCalculator.Proofs.Formula.Replaced
import DeskCalculator.Proofs.Number.Packed
import DeskCalculator.Proofs.Number.Shortest

/-!
# The value of a formula at a number

A finite number in parentheses, as it is written, is a formula whose value is that number. With it
in place of the variable, the line of a formula with the variable is the line of a formula without,
and is read as that one.
-/

namespace DeskCalculator

namespace Double

/-- The literal that a magnitude is written with. -/
def literal (x : Float) : Literal :=
  written BinaryFormat.double.grain (BinaryFormat.double.shortest (code x))

theorem text_of_isFinite {x : Float} (h : x.isFinite = true) :
    text x = sign (isNegative x) ++ (literal x).text := by
  rw [text, not_isNaN_of_isFinite h, if_neg Bool.false_ne_true, if_pos h, magnitudeText, literal,
    text_written]

/-- **The writing of a finite double reads back as that double**, its sign aside. -/
theorem value_literal {x : Float} (h : x.isFinite = true) :
    (literal x).value = ofCode false (code x) := by
  have hgrain : 0 < BinaryFormat.double.grain := by decide
  have hcode := code_written_shortest hgrain (Nat.le_of_lt ((isFinite_iff x).mp h))
  have hvalue : ∀ l : Literal, l.value = ofCode false (l.numeral.code .double) := fun l ↦ rfl
  rw [hvalue, literal, hcode]

end Double

namespace Typed

/-- A number in parentheses. -/
def ofFloat (x : Float) : Typed false :=
  if Double.isNegative x then negate (literal (Double.literal x))
  else grouped (literal (Double.literal x))

variable {x : Float}

@[simp] theorem isLiteral_ofFloat (x : Float) : (ofFloat x).isLiteral = false := by
  rw [ofFloat]
  split <;> rfl

theorem isLegible_ofFloat (x : Float) : (ofFloat x).IsLegible := by
  rw [ofFloat]
  split <;> exact trivial

theorem text_ofFloat (h : x.isFinite = true) :
    (ofFloat x).text = '(' :: Double.text x ++ [')'] := by
  have htext : ∀ (l : Literal) (b : Bool),
      (if b then negate (literal l) else grouped (literal l) : Typed false).text
        = '(' :: (Double.sign b ++ l.text) ++ [')'] := by
    intro l b
    cases b <;> rfl
  rw [ofFloat, Double.text_of_isFinite h, htext]

theorem value_ofFloat (h : x.isFinite = true) (y : Float) : (ofFloat x).value y = x := by
  have hcode := Double.ofCode_code x
  rw [ofFloat]
  split
  · next hneg =>
    rw [value, value, Double.value_literal h,
      Double.neg_ofCode (Nat.le_of_lt ((Double.isFinite_iff x).mp h)), ← hneg, hcode]
  · next hneg =>
    rw [Bool.not_eq_true] at hneg
    rw [value, value, Double.value_literal h, ← hneg, hcode]

theorem evaluateAt_text (t : Typed true) (ht : t.IsLegible) {v : Float} (hv : v.isFinite = true) :
    evaluateAt t.text v = finite (t.value v) := by
  have hlegible := isLegible_replace (isLiteral_ofFloat v) (isLegible_ofFloat v) ht
  rw [evaluateAt, if_pos hv, substitute_text (text_ofFloat hv) t ht,
    evaluateLine_text _ hlegible v, value_replace, value_ofFloat hv]

/-- **The line of a legible formula evaluates at a finite number to the value of the formula
there**, and is refused only if that value is infinite or undefined. -/
theorem evaluateAt_eq_value (t : Typed true) (ht : t.IsLegible) (v : Float)
    (hv : v.isFinite = true) :
    evaluateAt t.text v
      = if (t.value v).isFinite then .ok (t.value v) else .error .notFinite :=
  t.evaluateAt_text ht hv

/-- Products without a sign, with a blank between the factors and without, at a negative number. -/
theorem evaluateAt_neg_two : evaluateAt "((2x) (X-(4(-x))))".toList (-2.0) = .ok 40.0 := by
  let x : Typed true := .letter rfl false
  let t : Typed true := .product rfl [' '] (.product rfl [] (.literal { whole := ['2'] }) x)
    (.binary .minus (.letter rfl true)
      (.product rfl [] (.literal { whole := ['4'] }) (.negate x)))
  have hv : (-2.0 : Float).isFinite = true := by decide +kernel
  have h := evaluateAt_eq_value t (by decide) (-2.0) hv
  have htext : t.text = "((2x) (X-(4(-x))))".toList := by decide
  have hvalue : t.value (-2.0) = 40.0 := by decide +kernel
  have hfinite : (40.0 : Float).isFinite = true := by decide +kernel
  rwa [htext, hvalue, if_pos hfinite] at h

end Typed

end DeskCalculator
