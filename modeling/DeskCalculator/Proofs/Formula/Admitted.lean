import DeskCalculator.Formula.Value
import DeskCalculator.Proofs.Formula.Percentage
import DeskCalculator.Proofs.Formula.SignedProducts
import DeskCalculator.Proofs.Refusal

/-!
# Characters of lines that have a value

A line is refused for any character that no expression has. The passes before that check only take
away blanks, percent signs, the variable and what a line may end with, so such a character reaches
the check wherever it stands, also when a value has been put in place of the variable.
-/

namespace DeskCalculator

/-- The characters of lines that can be cleaned: those of a cleaned line, and the glyphs. -/
def isLineChar (c : Char) : Bool := isCleanChar c || isGlyph c

variable {c : Char}

theorem isLineChar_of_isGlyph (h : isGlyph c = true) : isLineChar c = true := by
  rw [isLineChar, h, Bool.or_true]

theorem isLineChar_of_isBlank (h : isBlank c = true) : isLineChar c = true := by
  rw [isLineChar, isCleanChar, h, Bool.or_true, Bool.true_or]

theorem isCleanChar_of_isUnfinished (h : isUnfinished c = true) : isCleanChar c = true := by
  have hsigns : "+-*/.%".toList.all isCleanChar = true := by decide
  rcases Bool.or_eq_true_iff.mp h with h | h
  · exact List.all_eq_true.mp hsigns c (List.contains_iff_mem.mp h)
  · rw [isCleanChar, h, Bool.or_true]

theorem isLineChar_of_isUnfinished (h : isUnfinished c = true) : isLineChar c = true := by
  rw [isLineChar, isCleanChar_of_isUnfinished h, Bool.true_or]

theorem isLineChar_of_isVariable (h : isVariable c = true) : isLineChar c = true := by
  rcases Bool.or_eq_true_iff.mp h with h | h
  · rw [beq_iff_eq.mp h]
    rfl
  · rw [beq_iff_eq.mp h]
    rfl

/-- A refused character is in no class of characters that lines have. -/
theorem eq_false_of_not_isLineChar {p : Char → Bool} (hp : p c = true → isLineChar c = true)
    (h : isLineChar c = false) : p c = false := by
  rw [← Bool.not_eq_true]
  intro hc
  rw [hp hc] at h
  cases h

/-! ## The passes -/

theorem mem_spellOut (h : isGlyph c = false) {s : List Char} (hc : c ∈ s) : c ∈ spellOut s := by
  refine List.mem_flatMap.mpr ⟨c, hc, ?_⟩
  rw [spell_of_not_isGlyph h]
  exact List.mem_singleton_self c

theorem mem_dropEndWhile {p : Char → Bool} (h : p c = false) {s : List Char} (hc : c ∈ s) :
    c ∈ dropEndWhile p s := by
  obtain ⟨t, ht, happend⟩ := exists_dropEndWhile_append p s
  rw [← happend, List.mem_append] at hc
  refine hc.resolve_right fun hc ↦ ?_
  rw [ht c hc] at h
  cases h

theorem mem_signBetween (r : Char → Char → Bool) (h : isBlank c = false) {s : List Char}
    (hc : c ∈ s) : c ∈ signBetween r s := by
  fun_induction signBetween r s with
  | case1 => exact hc
  | case2 d s hany ih =>
    rcases List.mem_cons.mp hc with rfl | hc
    · exact List.mem_cons_self
    · exact List.mem_cons_of_mem _ (List.mem_cons_of_mem _ (ih (mem_dropWhile h hc)))
  | case3 d s hany ih =>
    rcases List.mem_cons.mp hc with rfl | hc
    · exact List.mem_cons_self
    · exact List.mem_cons_of_mem _ (ih hc)

theorem percentage?_append {s : List Char} {n : List Char × List Char}
    (h : percentage? s = some n) : n.1 ++ '%' :: n.2 = s := by
  have hs : s.takeWhile isDecimalDigit ++ s.dropWhile isDecimalDigit = s :=
    List.takeWhile_append_dropWhile
  simp only [percentage?] at h
  split at h
  · next rest heq =>
    cases h
    rwa [heq] at hs
  · next rest heq =>
    have hrest : rest.takeWhile isDecimalDigit ++ rest.dropWhile isDecimalDigit = rest :=
      List.takeWhile_append_dropWhile
    rw [heq] at hs
    split at h
    · next rest' heq' =>
      rw [heq'] at hrest
      split at h
      · cases h
      · cases h
        rw [List.append_assoc, List.cons_append, hrest, hs]
    · cases h
  · cases h

theorem mem_expandPercentages (h : c ≠ '%') {s : List Char} (hc : c ∈ s) :
    c ∈ expandPercentages s := by
  fun_induction expandPercentages s with
  | case1 => exact hc
  | case2 d s hd n hn ih =>
    rw [← percentage?_append hn, List.mem_append, List.mem_cons] at hc
    rw [List.mem_append, List.mem_append, List.mem_cons]
    rcases hc with hc | hc | hc
    · exact .inl (.inl (.inr hc))
    · exact absurd hc h
    · exact .inr (ih hc)
  | case3 d s hd hn ih =>
    have hs : s.takeWhile isDecimalDigit ++ s.dropWhile isDecimalDigit = s :=
      List.takeWhile_append_dropWhile
    rw [← hs, List.mem_cons, List.mem_append] at hc
    rw [List.mem_append, List.mem_cons]
    rcases hc with hc | hc | hc
    · exact .inl (.inl hc)
    · exact .inl (.inr hc)
    · exact .inr (ih hc)
  | case4 d s hd ih =>
    rcases List.mem_cons.mp hc with rfl | hc
    · exact List.mem_cons_self
    · exact List.mem_cons_of_mem _ (ih hc)

/-! ## Refused characters -/

/-- A line that can be cleaned has no other characters. -/
theorem isLineChar_of_clean {line s : List Char} (h : clean line = .ok s) (hc : c ∈ line) :
    isLineChar c = true := by
  rw [← Bool.not_eq_false]
  intro hline
  -- the percent sign is the only character that the expansion takes away
  have hpercent : c ≠ '%' := by
    rintro rfl
    exact absurd hline (by decide)
  have hmem := mem_expandPercentages hpercent
    (mem_dropEndWhile (eq_false_of_not_isLineChar isLineChar_of_isUnfinished hline)
      (mem_spellOut (eq_false_of_not_isLineChar isLineChar_of_isGlyph hline) hc))
  simp only [clean] at h
  split at h
  · cases h
  · split at h
    · next hall =>
      rw [isLineChar, List.all_eq_true.mp hall c hmem] at hline
      cases hline
    · cases h

theorem isLineChar_of_evaluateAt {line : List Char} {v x : Float} (h : evaluateAt line v = .ok x)
    (hc : c ∈ line) : isLineChar c = true := by
  rw [← Bool.not_eq_false]
  intro hline
  have hmem : c ∈ substitute line (Double.text v) := by
    refine List.mem_flatMap.mpr ⟨c, ?_, ?_⟩
    · rw [signProducts_eq_signBetween]
      exact mem_signBetween meet (eq_false_of_not_isLineChar isLineChar_of_isBlank hline)
        (mem_spellOut (eq_false_of_not_isLineChar isLineChar_of_isGlyph hline) hc)
    · rw [eq_false_of_not_isLineChar isLineChar_of_isVariable hline, if_neg Bool.false_ne_true]
      exact List.mem_singleton_self c
  rw [evaluateAt] at h
  split at h
  · rw [evaluateLine] at h
    obtain ⟨s, hclean, -⟩ := exists_of_bind_eq_ok h
    rw [isLineChar_of_clean hclean hmem] at hline
    cases hline
  · cases h

end DeskCalculator
