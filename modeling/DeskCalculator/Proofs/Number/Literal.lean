import DeskCalculator.Number.Numeral
import DeskCalculator.Proofs.Text.Stretch
import DeskCalculator.Text.DecimalDigit

/-!
# Literals

A *literal* is a number as it is typed inside an expression: digits `0` to `9`, and behind a point
more digits if there is a point. It has no sign and no exponent. Reading the head of a line gives
the literal back as long as what follows it is neither a digit nor a point.
-/

namespace DeskCalculator

theorem isDigit_of_mem_nil : ∀ c ∈ ([] : List Char), c.isDigit = true :=
  fun _ hc ↦ absurd hc List.not_mem_nil

/-- A number as it is typed inside an expression. -/
structure Literal where
  /-- The digits before the point. -/
  whole : List Char
  /-- The digits behind the point; none means no point. -/
  fraction : List Char := []
  whole_ne_nil : whole ≠ [] := by decide
  isDigit_whole : ∀ c ∈ whole, c.isDigit = true := by exact List.all_eq_true.mp (by decide)
  isDigit_fraction : ∀ c ∈ fraction, c.isDigit = true := by
    first | exact isDigit_of_mem_nil | exact List.all_eq_true.mp (by decide)

namespace Literal

/-- The writing of a literal. -/
def text (l : Literal) : List Char :=
  match l.fraction with
  | [] => l.whole
  | fraction => l.whole ++ '.' :: fraction

/-- The digits of a literal, as a numeral. -/
def numeral (l : Literal) : Numeral := { whole := l.whole, fraction := l.fraction }

/-- The double nearest to a literal. -/
def value (l : Literal) : Float := l.numeral.value

theorem text_of_fraction_eq_nil {l : Literal} (h : l.fraction = []) : l.text = l.whole := by
  rw [text, h]

theorem text_of_fraction_ne_nil {l : Literal} (h : l.fraction ≠ []) :
    l.text = l.whole ++ '.' :: l.fraction := by
  rw [text]
  split
  · next h' => exact absurd h' h
  · rfl

theorem isDigit_or_eq_point (l : Literal) : ∀ c ∈ l.text, c.isDigit = true ∨ c = '.' := by
  intro c hc
  by_cases h : l.fraction = []
  · rw [text_of_fraction_eq_nil h] at hc
    exact .inl (l.isDigit_whole c hc)
  · rw [text_of_fraction_ne_nil h, List.mem_append, List.mem_cons] at hc
    rcases hc with hc | hc | hc
    · exact .inl (l.isDigit_whole c hc)
    · exact .inr hc
    · exact .inl (l.isDigit_fraction c hc)

theorem count_point_le (l : Literal) : l.text.count '.' ≤ 1 := by
  have hnone : ∀ t : List Char, (∀ c ∈ t, c.isDigit = true) → t.count '.' = 0 := by
    intro t ht
    refine List.count_eq_zero.mpr fun h ↦ ?_
    exact absurd (ht '.' h) (by decide)
  by_cases hf : l.fraction = []
  · rw [text_of_fraction_eq_nil hf, hnone _ l.isDigit_whole]
    exact Nat.zero_le 1
  · refine Nat.le_of_eq ?_
    rw [text_of_fraction_ne_nil hf, List.count_append, List.count_cons_self,
      hnone _ l.isDigit_whole, hnone _ l.isDigit_fraction]

theorem exists_text_eq_cons (l : Literal) : ∃ c s, l.text = c :: s ∧ c.isDigit = true := by
  obtain ⟨c, s, hs⟩ := List.exists_cons_of_ne_nil l.whole_ne_nil
  have hc : c.isDigit = true := l.isDigit_whole c (by simp [hs])
  by_cases h : l.fraction = []
  · exact ⟨c, s, by rw [text_of_fraction_eq_nil h, hs], hc⟩
  · exact ⟨c, s ++ '.' :: l.fraction, by rw [text_of_fraction_ne_nil h, hs, List.cons_append], hc⟩

theorem exists_text_eq_append (l : Literal) : ∃ s c, l.text = s ++ [c] ∧ c.isDigit = true := by
  by_cases h : l.fraction = []
  · refine ⟨l.whole.dropLast, l.whole.getLast l.whole_ne_nil, ?_, ?_⟩
    · rw [text_of_fraction_eq_nil h, List.dropLast_concat_getLast]
    · exact l.isDigit_whole _ (List.getLast_mem _)
  · refine ⟨l.whole ++ '.' :: l.fraction.dropLast, l.fraction.getLast h, ?_, ?_⟩
    · rw [text_of_fraction_ne_nil h, List.append_assoc, List.cons_append,
        List.dropLast_concat_getLast]
    · exact l.isDigit_fraction _ (List.getLast_mem _)

/-- What may follow a literal without being read as part of it. -/
def IsEnd (rest : List Char) : Prop := ∀ c ∈ rest.head?, c.isDigit = false ∧ c ≠ '.'

theorem isEnd_nil : IsEnd [] := fun _ hc ↦ absurd hc (Option.not_mem_none _)

theorem isEnd_cons {c : Char} (hc : c.isDigit = false) (hpoint : c ≠ '.') (rest : List Char) :
    IsEnd (c :: rest) := by
  rintro d ⟨⟩
  exact ⟨hc, hpoint⟩

theorem isDigit_point (rest : List Char) : ∀ c ∈ ('.' :: rest).head?, c.isDigit = false := by
  rintro c ⟨⟩
  rfl

/-- A literal at the head of a line is read whole. -/
theorem unsigned_text_append (l : Literal) {rest : List Char} (h : IsEnd rest) :
    Numeral.unsigned Char.isDigit (l.text ++ rest) = (l.numeral, rest) := by
  have hdigit : ∀ c ∈ rest.head?, c.isDigit = false := fun c hc ↦ (h c hc).1
  by_cases hf : l.fraction = []
  · rw [text_of_fraction_eq_nil hf, Numeral.unsigned, takeWhile_stretch l.isDigit_whole hdigit,
      dropWhile_stretch l.isDigit_whole hdigit, numeral, hf]
    -- the rest does not begin with a point, which is the other case of the reading
    cases rest with
    | nil => rfl
    | cons c rest =>
      have hc : c ≠ '.' := (h c rfl).2
      split
      · next heq => exact absurd (List.cons.inj heq).1 hc
      · rfl
  · have hpoint := isDigit_point (l.fraction ++ rest)
    rw [text_of_fraction_ne_nil hf, List.append_assoc, List.cons_append, Numeral.unsigned,
      takeWhile_stretch l.isDigit_whole hpoint, dropWhile_stretch l.isDigit_whole hpoint]
    change (({ whole := l.whole, fraction := _ } : Numeral), _) = _
    rw [takeWhile_stretch l.isDigit_fraction hdigit, dropWhile_stretch l.isDigit_fraction hdigit]
    rfl

end Literal

/-! ## The ten digits -/

/-- What holds of the ten digits holds of every digit. -/
theorem eq_of_isDigit (p : Char → Bool) {b : Bool} (h : ∀ n < 10, p (Char.ofNat (n + 48)) = b)
    {c : Char} (hc : c.isDigit = true) : p c = b := by
  simp only [Char.isDigit, Bool.and_eq_true, decide_eq_true_eq] at hc
  have hlow : 48 ≤ c.toNat := hc.1
  have hhigh : c.toNat ≤ 57 := hc.2
  have hn := h (c.toNat - 48) (by omega)
  rwa [Nat.sub_add_cancel hlow, Char.ofNat_toNat] at hn

theorem isDecimalDigit_of_isDigit {c : Char} (h : c.isDigit = true) : isDecimalDigit c = true :=
  eq_of_isDigit isDecimalDigit (by decide) h

end DeskCalculator
