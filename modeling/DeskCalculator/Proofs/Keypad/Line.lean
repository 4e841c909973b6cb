import DeskCalculator.Keypad.Buffer
import DeskCalculator.Proofs.Text.Stretch

/-!
# Keys and the line

What a key does to the line, class by class. No key empties a line.
-/

namespace DeskCalculator

namespace Buffer

variable {s : List Char} {c : Char}

/-! ## Lines are not empty -/

theorem appendOperator_ne_nil (s : List Char) (c : Char) : appendOperator s c ≠ [] := by
  fun_cases appendOperator s c with
  | case5 => simp
  | _ => exact List.cons_ne_nil _ _

theorem append_ne_nil (hs : s ≠ []) (c : Char) : append s c ≠ [] := by
  fun_cases append s c with
  | case3 => exact appendOperator_ne_nil s c
  | case5 => exact hs
  | case11 => exact hs
  | case20 => exact hs
  | _ => simp

theorem backspace_ne_nil (s : List Char) : backspace s ≠ [] := by
  fun_cases backspace s with
  | case1 => exact List.cons_ne_nil _ _
  | case2 => exact List.cons_ne_nil _ _
  | case3 hshort hlone =>
    intro hempty
    have hlength := congrArg List.length hempty
    rw [List.length_dropLast, List.length_nil] at hlength
    simp only [Bool.or_eq_true, decide_eq_true_eq, not_or] at hshort
    omega

end Buffer

end DeskCalculator
