import DeskCalculator.Number.Numeral
import DeskCalculator.Proofs.Text.Stretch

/-!
# Written numbers

A number is written as a sign, digits around a point, and an exponent. Here is what each part may be
written as, for any class of digits, and that reading a part at the head of a line takes it: what is
taken is such a part, and it is no less than any such part at the head of the line. So it is with a
number as a whole, and a number that stands alone is read to its end.

The digits around a point are the part that reading may take more of: behind `1.5` it goes on with
the next digit, and behind `1` with a point as well. An exponent ends them, because its letter is
neither.
-/

namespace DeskCalculator

namespace Numeral

/-- A sign or none. -/
inductive IsSign : List Char → Bool → Prop where
  | none : IsSign [] false
  | plus : IsSign ['+'] false
  | minus : IsSign ['-'] true

/-- At least one digit, and a point before, between or behind the digits or none: the text, the
digits in front of the point and the digits behind it. -/
inductive IsMantissa (isDigit : Char → Bool) : List Char → List Char → List Char → Prop where
  | whole {w : List Char} (hne : w ≠ []) (hw : ∀ c ∈ w, isDigit c = true) :
      IsMantissa isDigit w w []
  | pointed {w f : List Char} (hne : w ++ f ≠ []) (hw : ∀ c ∈ w, isDigit c = true)
      (hf : ∀ c ∈ f, isDigit c = true) : IsMantissa isDigit (w ++ '.' :: f) w f

/-- The letter of an exponent, a sign or none, and at least one digit; or no exponent. -/
inductive IsExponent (isDigit : Char → Bool) : List Char → Bool → List Char → Prop where
  | none : IsExponent isDigit [] false []
  | some {c : Char} {t d : List Char} {b : Bool} (hc : c = 'e' ∨ c = 'E') (ht : IsSign t b)
      (hne : d ≠ []) (hd : ∀ c ∈ d, isDigit c = true) : IsExponent isDigit (c :: (t ++ d)) b d

/-- None of the characters between the digits of a number is in the class. -/
structure IsDigitClass (isDigit : Char → Bool) : Prop where
  point : isDigit '.' = false
  plus : isDigit '+' = false
  minus : isDigit '-' = false
  lower : isDigit 'e' = false
  upper : isDigit 'E' = false

theorem isDigitClass_isDigit : IsDigitClass Char.isDigit := ⟨rfl, rfl, rfl, rfl, rfl⟩

/-- A sign or none, digits around a point, an exponent or none. -/
inductive IsNumber (isDigit : Char → Bool) : List Char → Numeral → Prop where
  | intro {t m w f e d : List Char} {b b' : Bool} (ht : IsSign t b) (hm : IsMantissa isDigit m w f)
      (he : IsExponent isDigit e b' d) : IsNumber isDigit (t ++ (m ++ e)) ⟨b, w, f, b', d⟩

variable {isDigit : Char → Bool} {s t m e w f d : List Char} {b : Bool}

/-! ## Signs -/

theorem IsSign.sign_append (h : IsSign t b) (hs : ∀ c ∈ s.head?, c ≠ '+' ∧ c ≠ '-') :
    sign (t ++ s) = (b, s) := by
  cases h with
  | plus | minus => rfl
  | none =>
    rw [List.nil_append, sign]
    · rintro s' rfl
      exact (hs '-' rfl).2 rfl
    · rintro s' rfl
      exact (hs '+' rfl).1 rfl

theorem IsSign.filter_eq (h : IsSign t b) (hclass : IsDigitClass isDigit) :
    t.filter isDigit = [] := by
  cases h with
  | none => rfl
  | plus => exact List.filter_cons_of_neg (Bool.eq_false_iff.mp hclass.plus)
  | minus => exact List.filter_cons_of_neg (Bool.eq_false_iff.mp hclass.minus)

theorem exists_isSign (s : List Char) : ∃ t, t ++ (sign s).2 = s ∧ IsSign t (sign s).1 := by
  rw [sign.eq_def]
  split
  · exact ⟨['-'], rfl, .minus⟩
  · exact ⟨['+'], rfl, .plus⟩
  · exact ⟨[], rfl, .none⟩

/-! ## Digits around a point -/

theorem unsigned_fst (isDigit : Char → Bool) (s : List Char) : (unsigned isDigit s).1
    = { whole := (unsigned isDigit s).1.whole, fraction := (unsigned isDigit s).1.fraction } := by
  rw [unsigned]
  split <;> rfl

namespace IsMantissa

theorem isDigit_point_eq_false (hp : isDigit '.' = false) (s : List Char) :
    ∀ c ∈ ('.' :: s).head?, isDigit c = false := by
  rintro c ⟨⟩
  exact hp

/-- The digits around a point are read to their end if nothing behind them goes on with them. -/
theorem unsigned_append (h : IsMantissa isDigit m w f) (hp : isDigit '.' = false)
    (hs : ∀ c ∈ s.head?, isDigit c = false ∧ c ≠ '.') :
    unsigned isDigit (m ++ s) = ({ whole := w, fraction := f }, s) := by
  have hdigit : ∀ c ∈ s.head?, isDigit c = false := fun c hc ↦ (hs c hc).1
  cases h with
  | whole hne hw =>
    rw [unsigned, takeWhile_stretch hw hdigit, dropWhile_stretch hw hdigit]
    split
    · exact absurd rfl (hs '.' rfl).2
    · rfl
  | @pointed w f hne hw hf =>
    have hpoint := isDigit_point_eq_false hp (f ++ s)
    rw [List.append_assoc, List.cons_append, unsigned, takeWhile_stretch hw hpoint,
      dropWhile_stretch hw hpoint]
    simp only [takeWhile_stretch hf hdigit, dropWhile_stretch hf hdigit]

theorem length_unsigned_append_le (h : IsMantissa isDigit m w f) (hp : isDigit '.' = false)
    (s : List Char) : (unsigned isDigit (m ++ s)).2.length ≤ s.length := by
  cases h with
  | whole hne hw =>
    rw [unsigned, List.dropWhile_append_of_pos hw]
    have hs := length_dropWhile_le isDigit s
    split
    · next rest heq =>
      have hrest := length_dropWhile_le isDigit rest
      rw [heq, List.length_cons] at hs
      exact Nat.le_trans hrest (Nat.le_of_succ_le hs)
    · exact hs
  | @pointed w f hne hw hf =>
    have hpoint := isDigit_point_eq_false hp (f ++ s)
    rw [List.append_assoc, List.cons_append, unsigned, takeWhile_stretch hw hpoint,
      dropWhile_stretch hw hpoint]
    simp only [List.dropWhile_append_of_pos hf]
    exact length_dropWhile_le isDigit s

theorem unsigned_append_ne_nil (h : IsMantissa isDigit m w f) (hp : isDigit '.' = false)
    (s : List Char) : ¬ ((unsigned isDigit (m ++ s)).1.whole.isEmpty
      && (unsigned isDigit (m ++ s)).1.fraction.isEmpty) = true := by
  rw [Bool.and_eq_true, List.isEmpty_iff, List.isEmpty_iff, ← List.append_eq_nil_iff]
  cases h with
  | whole hne hw =>
    rw [unsigned, List.takeWhile_append_of_pos hw]
    split <;> simp [hne]
  | @pointed w f hne hw hf =>
    have hpoint := isDigit_point_eq_false hp (f ++ s)
    rw [List.append_assoc, List.cons_append, unsigned, takeWhile_stretch hw hpoint,
      dropWhile_stretch hw hpoint]
    simp only [List.takeWhile_append_of_pos hf, ← List.append_assoc]
    exact List.append_ne_nil_of_left_ne_nil hne _

theorem filter_eq (h : IsMantissa isDigit m w f) (hp : isDigit '.' = false) :
    m.filter isDigit = w ++ f := by
  cases h with
  | whole hne hw => rw [List.filter_eq_self.mpr hw, List.append_nil]
  | pointed hne hw hf =>
    rw [List.filter_append, List.filter_cons_of_neg (Bool.eq_false_iff.mp hp),
      List.filter_eq_self.mpr hw, List.filter_eq_self.mpr hf]

theorem isDigit_or_eq_point (h : IsMantissa isDigit m w f) :
    ∀ c ∈ m, isDigit c = true ∨ c = '.' := by
  cases h with
  | whole hne hw => exact fun c hc ↦ .inl (hw c hc)
  | pointed hne hw hf =>
    rw [List.forall_mem_append, List.forall_mem_cons]
    exact ⟨fun c hc ↦ .inl (hw c hc), .inr rfl, fun c hc ↦ .inl (hf c hc)⟩

theorem ne_nil (h : IsMantissa isDigit m w f) : m ≠ [] := by
  cases h with
  | whole hne hw => exact hne
  | pointed hne hw hf => simp

theorem head?_append (h : IsMantissa isDigit m w f) (s : List Char) :
    ∀ c ∈ (m ++ s).head?, isDigit c = true ∨ c = '.' :=
  fun c hc ↦ h.isDigit_or_eq_point c (mem_of_mem_head?_append h.ne_nil hc)

end IsMantissa

theorem IsSign.sign_append_mantissa (h : IsSign t b) (hm : IsMantissa isDigit m w f)
    (hclass : IsDigitClass isDigit) (s : List Char) : sign (t ++ (m ++ s)) = (b, m ++ s) := by
  refine h.sign_append fun c hc ↦ ?_
  have hfirst := hm.head?_append s c hc
  constructor <;> rintro rfl
  · exact hfirst.elim (Bool.eq_false_iff.mp hclass.plus) (by decide)
  · exact hfirst.elim (Bool.eq_false_iff.mp hclass.minus) (by decide)

theorem exists_isMantissa (h : ¬ ((unsigned isDigit s).1.whole.isEmpty
      && (unsigned isDigit s).1.fraction.isEmpty) = true) :
    ∃ m, m ++ (unsigned isDigit s).2 = s ∧
      IsMantissa isDigit m (unsigned isDigit s).1.whole (unsigned isDigit s).1.fraction := by
  have htake : ∀ t : List Char, ∀ c ∈ t.takeWhile isDigit, isDigit c = true :=
    fun _ ↦ List.all_eq_true.mp List.all_takeWhile
  have hs : s.takeWhile isDigit ++ s.dropWhile isDigit = s := List.takeWhile_append_dropWhile
  rw [unsigned] at h ⊢
  split
  · next rest heq =>
    simp only [heq, Bool.and_eq_true, List.isEmpty_iff, ← List.append_eq_nil_iff] at h
    rw [heq] at hs
    refine ⟨_, ?_, .pointed h (htake s) (htake rest)⟩
    rw [List.append_assoc, List.cons_append, List.takeWhile_append_dropWhile]
    exact hs
  · next hpoint =>
    refine ⟨_, hs, .whole ?_ (htake s)⟩
    simpa [hpoint] using h

/-! ## Exponents -/

theorem exists_isExponent (s : List Char) :
    ∃ e, e ++ (exponentPart isDigit s).2.2 = s ∧
      IsExponent isDigit e (exponentPart isDigit s).1 (exponentPart isDigit s).2.1 := by
  cases s with
  | nil => exact ⟨[], rfl, .none⟩
  | cons c s =>
    rw [exponentPart]
    split
    · next h =>
      rw [Bool.and_eq_true, Bool.or_eq_true, beq_iff_eq, beq_iff_eq, Bool.not_eq_true',
        List.isEmpty_eq_false_iff] at h
      obtain ⟨t, ht, hsign⟩ := exists_isSign s
      refine ⟨_, ?_, .some h.1 hsign h.2 (List.all_eq_true.mp List.all_takeWhile)⟩
      rw [List.cons_append, List.append_assoc, List.takeWhile_append_dropWhile, ht]
    · exact ⟨[], rfl, .none⟩

theorem length_exponentPart_le (s : List Char) :
    (exponentPart isDigit s).2.2.length ≤ s.length := by
  obtain ⟨e, he, -⟩ := @exists_isExponent isDigit s
  have hlength := congrArg List.length he
  rw [List.length_append] at hlength
  omega

namespace IsExponent

/-- An exponent is read, and what is read behind its digits goes on with them. -/
theorem exponentPart_append (h : IsExponent isDigit e b d) (hclass : IsDigitClass isDigit)
    (hne : e ≠ []) (s : List Char) :
    exponentPart isDigit (e ++ s) = (b, d ++ s.takeWhile isDigit, s.dropWhile isDigit) := by
  cases h with
  | none => exact absurd rfl hne
  | @some c t d b hc ht hd hdigits =>
    have hsign : sign (t ++ (d ++ s)) = (b, d ++ s) := by
      refine ht.sign_append fun c hc ↦ ?_
      have hdigit := hdigits c (mem_of_mem_head?_append hd hc)
      constructor <;> rintro rfl
      · exact absurd hdigit (Bool.eq_false_iff.mp hclass.plus)
      · exact absurd hdigit (Bool.eq_false_iff.mp hclass.minus)
    have hletter : (c == 'e' || c == 'E') = true := by simpa using hc
    have hempty : (d ++ s.takeWhile isDigit).isEmpty = false :=
      List.isEmpty_eq_false_iff.mpr (List.append_ne_nil_of_left_ne_nil hd _)
    rw [List.cons_append, List.append_assoc]
    simp only [exponentPart, hsign, List.takeWhile_append_of_pos hdigits,
      List.dropWhile_append_of_pos hdigits, hletter, hempty]
    rfl

theorem exponentPart_eq (h : IsExponent isDigit e b d) (hclass : IsDigitClass isDigit) :
    exponentPart isDigit e = (b, d, []) := by
  by_cases hne : e = []
  · subst hne
    cases h
    rfl
  · have hread := h.exponentPart_append hclass hne []
    rwa [List.append_nil, List.takeWhile_nil, List.append_nil, List.dropWhile_nil] at hread

theorem length_exponentPart_append_le (h : IsExponent isDigit e b d)
    (hclass : IsDigitClass isDigit) (s : List Char) :
    (exponentPart isDigit (e ++ s)).2.2.length ≤ s.length := by
  by_cases hne : e = []
  · rw [hne, List.nil_append]
    exact length_exponentPart_le s
  · rw [h.exponentPart_append hclass hne]
    exact length_dropWhile_le isDigit s

theorem head?_eq_false (h : IsExponent isDigit e b d) (hclass : IsDigitClass isDigit) :
    ∀ c ∈ e.head?, isDigit c = false ∧ c ≠ '.' := by
  cases h with
  | none => exact fun c hc ↦ absurd hc (Option.not_mem_none c)
  | some hc ht hne hd =>
    rintro c ⟨⟩
    rcases hc with rfl | rfl
    · exact ⟨hclass.lower, by decide⟩
    · exact ⟨hclass.upper, by decide⟩

theorem filter_eq (h : IsExponent isDigit e b d) (hclass : IsDigitClass isDigit) :
    e.filter isDigit = d := by
  cases h with
  | none => rfl
  | @some c t d b hc ht hne hd =>
    have hletter : isDigit c = false := by
      rcases hc with rfl | rfl
      · exact hclass.lower
      · exact hclass.upper
    rw [List.filter_cons_of_neg (Bool.eq_false_iff.mp hletter), List.filter_append,
      ht.filter_eq hclass, List.filter_eq_self.mpr hd, List.nil_append]

end IsExponent

/-! ## Numbers -/

variable {n : Numeral} {rest : List Char}

theorem exists_isNumber (h : leading? isDigit s = some (n, rest)) :
    ∃ w, w ++ rest = s ∧ IsNumber isDigit w n := by
  rw [leading?] at h
  simp only at h
  split at h
  · cases h
  · next hdigits =>
    cases h
    obtain ⟨t, ht, hsign⟩ := exists_isSign s
    obtain ⟨m, hm, hmantissa⟩ := exists_isMantissa hdigits
    obtain ⟨e, he, hexponent⟩ :=
      @exists_isExponent isDigit (unsigned isDigit (sign s).2).2
    refine ⟨t ++ (m ++ e), ?_, .intro hsign hmantissa hexponent⟩
    rw [List.append_assoc, List.append_assoc, he, hm, ht]

namespace IsNumber

theorem filter_eq (h : IsNumber isDigit w n) (hclass : IsDigitClass isDigit) :
    w.filter isDigit = n.whole ++ n.fraction ++ n.exponent := by
  cases h with
  | intro ht hm he =>
    rw [List.filter_append, List.filter_append, ht.filter_eq hclass, hm.filter_eq hclass.point,
      he.filter_eq hclass, List.nil_append]

theorem head?_append (h : IsNumber isDigit w n) (s : List Char) :
    ∀ c ∈ (w ++ s).head?, isDigit c = true ∨ c = '.' ∨ c = '+' ∨ c = '-' := by
  cases h with
  | intro ht hm he =>
    rw [List.append_assoc, List.append_assoc]
    cases ht with
    | none => exact fun c hc ↦ (hm.head?_append _ c hc).imp_right .inl
    | plus =>
      rintro c ⟨⟩
      exact .inr (.inr (.inl rfl))
    | minus =>
      rintro c ⟨⟩
      exact .inr (.inr (.inr rfl))

/-- A number that stands alone is read to its end. -/
theorem leading?_eq (h : IsNumber isDigit w n) (hclass : IsDigitClass isDigit) :
    leading? isDigit w = some (n, []) := by
  cases h with
  | @intro t m w f e d b b' ht hm he =>
    have hend := he.head?_eq_false hclass
    have hdigits := hm.unsigned_append_ne_nil hclass.point e
    rw [leading?]
    simp only [ht.sign_append_mantissa hm hclass]
    rw [if_neg hdigits, hm.unsigned_append hclass.point hend, he.exponentPart_eq hclass]

/-- What is read is no less than any number at the head of the line. -/
theorem leading?_append (h : IsNumber isDigit w n) (hclass : IsDigitClass isDigit)
    (s : List Char) :
    ∃ n' rest, leading? isDigit (w ++ s) = some (n', rest) ∧ rest.length ≤ s.length := by
  cases h with
  | @intro t m w f e d b b' ht hm he =>
    have hdigits := hm.unsigned_append_ne_nil hclass.point (e ++ s)
    rw [List.append_assoc, List.append_assoc, leading?]
    simp only [ht.sign_append_mantissa hm hclass]
    rw [if_neg hdigits]
    refine ⟨_, _, rfl, ?_⟩
    by_cases hne : e = []
    -- the digits around the point may go on, and an exponent may follow
    · rw [hne, List.nil_append]
      exact Nat.le_trans (length_exponentPart_le _) (hm.length_unsigned_append_le hclass.point s)
    · have hend : ∀ c ∈ (e ++ s).head?, isDigit c = false ∧ c ≠ '.' := by
        obtain ⟨c, e, rfl⟩ := List.exists_cons_of_ne_nil hne
        exact he.head?_eq_false hclass
      rw [hm.unsigned_append hclass.point hend]
      exact he.length_exponentPart_append_le hclass s

end IsNumber

end Numeral

end DeskCalculator
