import DeskCalculator.Proofs.Formula.Typed

/-!
# Cleaning a typed formula

The text of a typed formula is cleaned piece by piece. Spelling out turns it into the text of the
formula with plain signs. Expanding the percentages changes nothing else: a number that is no
percentage passes if what follows it is clear, that is neither a digit nor a point nor a percent
sign, and everything but a number always passes. Nothing is dropped at the end, where a formula has
a digit or a parenthesis.
-/

namespace DeskCalculator

/-! ## Glyphs -/

@[simp] theorem spellOut_nil : spellOut [] = [] := rfl

@[simp] theorem spellOut_append (s t : List Char) : spellOut (s ++ t) = spellOut s ++ spellOut t :=
  List.flatMap_append

@[simp] theorem spellOut_cons (c : Char) (s : List Char) : spellOut (c :: s) = spell c ++ spellOut s :=
  List.flatMap_cons

/-- Whether a character is spelled with others. -/
def isGlyph (c : Char) : Bool := c == '×' || c == '÷' || c == '^'

@[simp] theorem isGlyph_iff {c : Char} : isGlyph c = true ↔ c = '×' ∨ c = '÷' ∨ c = '^' := by
  simp [isGlyph, or_assoc]

theorem isGlyph_eq_false_of {p : Char → Bool} {c : Char}
    (hp : p '×' = false ∧ p '÷' = false ∧ p '^' = false) (h : p c = true) : isGlyph c = false := by
  rw [← Bool.not_eq_true, isGlyph_iff]
  rintro (rfl | rfl | rfl) <;> simp_all

theorem spell_of_not_isGlyph {c : Char} (h : isGlyph c = false) : spell c = [c] := by
  simp only [isGlyph, Bool.or_eq_false_iff, beq_eq_false_iff_ne] at h
  rw [spell]
  · exact h.1.1
  · exact h.1.2
  · exact h.2

theorem spellOut_eq_self {s : List Char} (h : ∀ c ∈ s, isGlyph c = false) : spellOut s = s := by
  induction s with
  | nil => rfl
  | cons c s ih =>
    rw [List.forall_mem_cons] at h
    simp [spell_of_not_isGlyph h.1, ih h.2]

@[simp] theorem spellOut_sign (s : Sign) : spellOut s.text = s.plain.text := by
  cases s <;> rfl

theorem isGlyph_of_isBlank {c : Char} (h : isBlank c = true) : isGlyph c = false :=
  isGlyph_eq_false_of (by decide) h

theorem Literal.isGlyph_of_mem_text (l : Literal) : ∀ c ∈ l.text, isGlyph c = false := by
  intro c hc
  rcases l.isDigit_or_eq_point c hc with h | rfl
  · exact eq_of_isDigit isGlyph (by decide) h
  · rfl

@[simp] theorem Literal.spellOut_text (l : Literal) : spellOut l.text = l.text :=
  spellOut_eq_self l.isGlyph_of_mem_text

theorem Typed.spellOut_text {isOpen : Bool} (t : Typed isOpen) (h : t.IsLegible) :
    spellOut t.text = t.plain.text := by
  induction t with
  | literal l => exact l.spellOut_text
  | percentage l => simp [spell]
  | letter _ isCapital => cases isCapital <;> rfl
  | grouped a ih => simp [spell, ih h]
  | negate a ih => simp [spell, ih h]
  | binary s a b iha ihb => simp [spell, iha h.1, ihb h.2.1]
  | product _ w a b iha ihb =>
    have hw : spellOut w = w :=
      spellOut_eq_self fun c hc ↦ isGlyph_of_isBlank (List.all_eq_true.mp h.2.2.1 c hc)
    simp [spell, hw, iha h.1, ihb h.2.1]

/-! ## Percentages -/

/-- What may follow a number that is no percentage. -/
def IsClear (rest : List Char) : Prop :=
  ∀ c ∈ rest.head?, isDecimalDigit c = false ∧ c ≠ '.' ∧ c ≠ '%'

@[simp] theorem expandPercentages_nil : expandPercentages [] = [] := by
  rw [expandPercentages]

theorem expandPercentages_cons {c : Char} (h : isDecimalDigit c = false) (s : List Char) :
    expandPercentages (c :: s) = c :: expandPercentages s := by
  rw [expandPercentages, h]
  rfl

@[simp] theorem expandPercentages_open (s : List Char) :
    expandPercentages ('(' :: s) = '(' :: expandPercentages s :=
  expandPercentages_cons (by decide) s

@[simp] theorem expandPercentages_close (s : List Char) :
    expandPercentages (')' :: s) = ')' :: expandPercentages s :=
  expandPercentages_cons (by decide) s

@[simp] theorem expandPercentages_minus (s : List Char) :
    expandPercentages ('-' :: s) = '-' :: expandPercentages s :=
  expandPercentages_cons (by decide) s

theorem expandPercentages_digits {s rest : List Char} (hne : s ≠ [])
    (hs : ∀ c ∈ s, isDecimalDigit c = true) (hr : ∀ c ∈ rest.head?, isDecimalDigit c = false)
    (h : percentage? (s ++ rest) = none) :
    expandPercentages (s ++ rest) = s ++ expandPercentages rest := by
  obtain ⟨c, s, rfl⟩ := List.exists_cons_of_ne_nil hne
  have hs' : ∀ d ∈ s, isDecimalDigit d = true := fun d hd ↦ hs d (List.mem_cons_of_mem c hd)
  rw [List.cons_append] at h ⊢
  rw [expandPercentages, hs c List.mem_cons_self, if_pos rfl]
  split
  · next n hn =>
    rw [h] at hn
    cases hn
  · rw [takeWhile_stretch hs' hr, dropWhile_stretch hs' hr]

theorem expandPercentages_of_percentage? {c : Char} {s : List Char} {n : List Char × List Char}
    (hc : isDecimalDigit c = true) (h : percentage? (c :: s) = some n) :
    expandPercentages (c :: s) = '(' :: n.1 ++ "/100)".toList ++ expandPercentages n.2 := by
  rw [expandPercentages, hc, if_pos rfl]
  split
  · next n' hn =>
    rw [h] at hn
    cases hn
    rfl
  · next hn =>
    rw [h] at hn
    cases hn

namespace Literal

variable (l : Literal)

theorem isDecimalDigit_whole : ∀ c ∈ l.whole, isDecimalDigit c = true :=
  fun c hc ↦ isDecimalDigit_of_isDigit (l.isDigit_whole c hc)

theorem isDecimalDigit_fraction : ∀ c ∈ l.fraction, isDecimalDigit c = true :=
  fun c hc ↦ isDecimalDigit_of_isDigit (l.isDigit_fraction c hc)

theorem isDecimalDigit_point (s : List Char) :
    ∀ c ∈ ('.' :: s).head?, isDecimalDigit c = false := by
  rintro c ⟨⟩
  decide

theorem percentage?_text_append (rest : List Char) :
    percentage? (l.text ++ '%' :: rest) = some (l.text, rest) := by
  have hpercent : ∀ c ∈ ('%' :: rest).head?, isDecimalDigit c = false := by
    rintro c ⟨⟩
    decide
  by_cases hf : l.fraction = []
  · rw [text_of_fraction_eq_nil hf, percentage?,
      takeWhile_stretch l.isDecimalDigit_whole hpercent,
      dropWhile_stretch l.isDecimalDigit_whole hpercent]
    rfl
  · have hpoint := isDecimalDigit_point (l.fraction ++ '%' :: rest)
    rw [text_of_fraction_ne_nil hf, List.append_assoc, List.cons_append, percentage?,
      takeWhile_stretch l.isDecimalDigit_whole hpoint,
      dropWhile_stretch l.isDecimalDigit_whole hpoint]
    simp only [takeWhile_stretch l.isDecimalDigit_fraction hpercent,
      dropWhile_stretch l.isDecimalDigit_fraction hpercent, List.isEmpty_iff, if_neg hf]

theorem expandPercentages_percent (rest : List Char) :
    expandPercentages (l.text ++ '%' :: rest)
      = '(' :: l.text ++ "/100)".toList ++ expandPercentages rest := by
  obtain ⟨c, s, hs, hc⟩ := l.exists_text_eq_cons
  have h := l.percentage?_text_append rest
  rw [hs, List.cons_append] at h ⊢
  exact expandPercentages_of_percentage? (isDecimalDigit_of_isDigit hc) h

/-- A literal that something clear follows passes. -/
theorem expandPercentages_text_append {rest : List Char} (h : IsClear rest) :
    expandPercentages (l.text ++ rest) = l.text ++ expandPercentages rest := by
  have hrest : ∀ c ∈ rest.head?, isDecimalDigit c = false := fun c hc ↦ (h c hc).1
  have hnone : ∀ {s : List Char}, (∀ c ∈ s, isDecimalDigit c = true) →
      percentage? (s ++ rest) = none := by
    intro s hs
    rw [percentage?, takeWhile_stretch hs hrest, dropWhile_stretch hs hrest]
    split
    · exact absurd rfl (h _ rfl).2.2
    · exact absurd rfl (h _ rfl).2.1
    · rfl
  by_cases hf : l.fraction = []
  · rw [text_of_fraction_eq_nil hf]
    exact expandPercentages_digits l.whole_ne_nil l.isDecimalDigit_whole hrest
      (hnone l.isDecimalDigit_whole)
  · have hpoint := isDecimalDigit_point (l.fraction ++ rest)
    have hnone' : percentage? (l.whole ++ '.' :: (l.fraction ++ rest)) = none := by
      rw [percentage?, takeWhile_stretch l.isDecimalDigit_whole hpoint,
        dropWhile_stretch l.isDecimalDigit_whole hpoint]
      simp only [takeWhile_stretch l.isDecimalDigit_fraction hrest,
        dropWhile_stretch l.isDecimalDigit_fraction hrest]
      split
      · exact absurd rfl (h _ rfl).2.2
      · rfl
    rw [text_of_fraction_ne_nil hf, List.append_assoc, List.cons_append,
      expandPercentages_digits l.whole_ne_nil l.isDecimalDigit_whole hpoint hnone',
      expandPercentages_cons (by decide), expandPercentages_digits hf l.isDecimalDigit_fraction
        hrest (hnone l.isDecimalDigit_fraction), List.append_assoc, List.cons_append]

end Literal

end DeskCalculator
