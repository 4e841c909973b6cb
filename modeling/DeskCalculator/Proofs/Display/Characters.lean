import DeskCalculator.Display.Grouping
import DeskCalculator.Display.Result
import DeskCalculator.Proofs.Number.Packed
import DeskCalculator.Proofs.Number.Shortest

/-!
# The characters of what is shown

Separating thousands adds commas and nothing else, and a finite number is shown with digits, a point
and a minus sign. Words appear only in place of what is not finite.
-/

namespace DeskCalculator

/-! ## Thousands separators -/

theorem mem_groupDigits {c : Char} {s : List Char} (h : c ∈ groupDigits s) : c ∈ s ∨ c = ',' := by
  induction s with
  | nil => exact .inl h
  | cons d s ih =>
    rw [groupDigits] at h
    split at h
    · rcases List.mem_cons.mp h with rfl | h
      · exact .inl List.mem_cons_self
      · rcases List.mem_cons.mp h with h | h
        · exact .inr h
        · exact (ih h).imp_left (List.mem_cons_of_mem d)
    · rcases List.mem_cons.mp h with rfl | h
      · exact .inl List.mem_cons_self
      · exact (ih h).imp_left (List.mem_cons_of_mem d)

theorem mem_groupUnsigned {c : Char} {s : List Char} (h : c ∈ groupUnsigned s) :
    c ∈ s ∨ c = ',' := by
  rcases List.mem_append.mp h with h | h
  · exact (mem_groupDigits h).imp_left fun h ↦ (List.takeWhile_sublist _).subset h
  · exact .inl ((List.dropWhile_sublist _).subset h)

theorem mem_group {c : Char} {s : List Char} (h : c ∈ group s) : c ∈ s ∨ c = ',' := by
  unfold group at h
  split at h
  · split at h
    · rcases List.mem_cons.mp h with rfl | h
      · exact .inl List.mem_cons_self
      · exact (mem_groupUnsigned h).imp_left (List.mem_cons_of_mem _)
    · exact .inl h
  · split at h
    · exact mem_groupUnsigned h
    · exact .inl h

@[simp] theorem leadingNumber_append (s : List Char) : (leadingNumber s).1 ++ (leadingNumber s).2 = s := by
  have hs : s.takeWhile isDecimalDigit ++ s.dropWhile isDecimalDigit = s :=
    List.takeWhile_append_dropWhile
  simp only [leadingNumber]
  split
  · next rest heq =>
    rw [heq] at hs
    split
    · exact hs
    · rw [List.append_assoc, List.cons_append, List.takeWhile_append_dropWhile]
      exact hs
  · exact hs

theorem mem_groupNumbers {c : Char} {s : List Char} (h : c ∈ groupNumbers s) :
    c ∈ s ∨ c = ',' := by
  fun_induction groupNumbers s with
  | case1 => exact .inl h
  | case2 d s hd ih =>
    -- the number at the head gets separators, the rest is as before
    have hsplit := leadingNumber_append (d :: s)
    rw [← hsplit, List.mem_append]
    rcases List.mem_append.mp h with h | h
    · exact (mem_group h).imp_left .inl
    · exact (ih h).imp_left .inr
  | case3 d s hd ih =>
    rcases List.mem_cons.mp h with rfl | h
    · exact .inl List.mem_cons_self
    · exact (ih h).imp_left (List.mem_cons_of_mem d)

/-- A line on the display has the characters of the line, commas, and a zero if it is empty. -/
theorem mem_displayedLine {c : Char} {s : List Char} (h : c ∈ displayedLine s) :
    c ∈ s ∨ c = ',' ∨ c = '0' := by
  rw [displayedLine] at h
  split at h
  · exact .inr (.inr (List.mem_singleton.mp h))
  · exact (mem_groupNumbers h).imp_right .inl

/-! ## Numbers -/

/-- The characters of a finite number, with thousands separators or without. -/
def isNumberChar (c : Char) : Bool := c.isDigit || c == '.' || c == '-' || c == ','

namespace Double

theorem isNumberChar_of_mem_sign {b : Bool} {c : Char} (hc : c ∈ sign b) :
    isNumberChar c = true := by
  rw [eq_of_mem_sign hc]
  rfl

theorem isNumberChar_of_mem_magnitudeText {code : Nat} {c : Char}
    (hc : c ∈ magnitudeText code) : isNumberChar c = true := by
  rw [magnitudeText, ← text_written] at hc
  rcases Literal.isDigit_or_eq_point _ c hc with h | rfl
  · rw [isNumberChar, h]
    rfl
  · rfl

theorem isNumberChar_of_mem_resultText {x : Float} (hx : x.isFinite = true) {c : Char}
    (hc : c ∈ resultText x) : isNumberChar c = true := by
  rw [resultText, not_isNaN_of_isFinite hx, if_neg Bool.false_ne_true, if_pos hx] at hc
  rcases List.mem_append.mp hc with h | h
  · exact isNumberChar_of_mem_sign h
  · exact isNumberChar_of_mem_magnitudeText h

theorem magnitudeText_ne_nil (code : Nat) : magnitudeText code ≠ [] := by
  obtain ⟨c, s, hs, -⟩ := (Literal.exists_text_eq_cons
    (written BinaryFormat.double.grain (BinaryFormat.double.shortest code)))
  rw [magnitudeText, ← text_written, hs]
  exact List.cons_ne_nil c s

theorem resultText_ne_nil (x : Float) : resultText x ≠ [] := by
  rw [resultText]
  split
  · exact List.cons_ne_nil _ _
  · split
    · exact List.append_ne_nil_of_right_ne_nil _ (magnitudeText_ne_nil _)
    · exact List.append_ne_nil_of_right_ne_nil _ (List.cons_ne_nil _ _)

/-- What is not finite is shown with a word. -/
theorem infix_resultText {x : Float} (hx : x.isFinite = false) :
    "NaN".toList <:+: resultText x ∨ "Infinity".toList <:+: resultText x := by
  rw [resultText]
  split
  · exact .inl (List.infix_refl _)
  · rw [hx, if_neg Bool.false_ne_true]
    exact .inr (List.suffix_append _ _).isInfix

end Double

end DeskCalculator
