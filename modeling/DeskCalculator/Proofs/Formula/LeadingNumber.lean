import DeskCalculator.Formula.Value
import DeskCalculator.Proofs.Formula.SignedProducts
import DeskCalculator.Proofs.Number.Overflow
import DeskCalculator.Proofs.Number.Written
import DeskCalculator.Proofs.Refusal

/-!
# The number that a line begins with

The number on the display is read in one of two ways. If the line can be cleaned, it is the value of
the line, or there is none; a fault of the cleaned line does not fall back on anything. Otherwise it
is the number that the line begins with: blanks, and behind them the longest number in digits of any
script.

The longest number is the one that the reader of numerals takes, and the blanks in front of it do
not make more of it possible, because no number begins with a blank. It has no value if one of its
digits is not one of `0` to `9`, although a shorter number in front of that digit would have one.
-/

namespace DeskCalculator

open Numeral (IsNumber IsDigitClass)

theorem isDigitClass_isDecimalDigit : IsDigitClass isDecimalDigit :=
  ⟨by decide, by decide, by decide, by decide, by decide⟩

/-- A text is blanks and a number behind them. -/
inductive IsLeading : List Char → Numeral → Prop where
  | intro {b w : List Char} {n : Numeral} (hb : ∀ c ∈ b, isBlank c = true)
      (hw : IsNumber isDecimalDigit w n) : IsLeading (b ++ w) n

/-- A line begins with this text of a number, and with no longer one. -/
def IsLongestLeading (line text : List Char) (n : Numeral) : Prop :=
  IsLeading text n ∧ text <+: line ∧
    ∀ text' n', IsLeading text' n' → text' <+: line → text'.length ≤ text.length

/-- All digits of a text are the digits `0` to `9`. -/
def IsPlainText (text : List Char) : Prop :=
  ∀ c ∈ text, isDecimalDigit c = true → c.isDigit = true

/-- A line does not begin with a number, or the longest one has a digit without a value. -/
def HasNoLeadingNumber (line : List Char) : Prop :=
  (∀ text n, IsLeading text n → ¬ text <+: line) ∨
    ∃ text n, IsLongestLeading line text n ∧ ¬ IsPlainText text

variable {line text s : List Char} {n : Numeral}

/-! ## The longest number -/

theorem dropWhile_blanks_append {b w : List Char} (hb : ∀ c ∈ b, isBlank c = true)
    (hw : IsNumber isDecimalDigit w n) (s : List Char) :
    (b ++ w ++ s).dropWhile isBlank = w ++ s := by
  rw [List.append_assoc]
  refine dropWhile_stretch hb fun c hc ↦ ?_
  rcases hw.head?_append s c hc with hdigit | rfl | rfl | rfl
  · rw [← Bool.not_eq_true]
    intro hblank
    rw [isDecimalDigit_of_isBlank hblank] at hdigit
    cases hdigit
  · rfl
  · rfl
  · rfl

theorem exists_isLeading {rest : List Char}
    (h : Numeral.leading? isDecimalDigit (line.dropWhile isBlank) = some (n, rest)) :
    ∃ text, text ++ rest = line ∧ IsLeading text n := by
  obtain ⟨w, hw, hnumber⟩ := Numeral.exists_isNumber h
  refine ⟨line.takeWhile isBlank ++ w, ?_, .intro (List.all_eq_true.mp List.all_takeWhile) hnumber⟩
  rw [List.append_assoc, hw, List.takeWhile_append_dropWhile]

theorem IsLeading.leading?_append (h : IsLeading text n) (s : List Char) :
    ∃ n' rest, Numeral.leading? isDecimalDigit ((text ++ s).dropWhile isBlank) = some (n', rest) ∧
      rest.length ≤ s.length := by
  cases h with
  | intro hb hw =>
    rw [dropWhile_blanks_append hb hw]
    exact hw.leading?_append isDigitClass_isDecimalDigit s

theorem IsLeading.leading?_eq (h : IsLeading text n) :
    Numeral.leading? isDecimalDigit (text.dropWhile isBlank) = some (n, []) := by
  cases h with
  | intro hb hw =>
    have hread := hw.leading?_eq isDigitClass_isDecimalDigit
    have hdrop := dropWhile_blanks_append hb hw []
    rw [List.append_nil, List.append_nil] at hdrop
    rwa [hdrop]

/-- **The longest number is what is read.** -/
theorem isLongestLeading_iff : IsLongestLeading line text n ↔ ∃ rest, text ++ rest = line ∧
    Numeral.leading? isDecimalDigit (line.dropWhile isBlank) = some (n, rest) := by
  constructor
  · rintro ⟨hleading, ⟨s, rfl⟩, hlongest⟩
    obtain ⟨n', rest, hread, hle⟩ := hleading.leading?_append s
    obtain ⟨text', happend, hleading'⟩ := exists_isLeading hread
    have hle' := hlongest text' n' hleading' ⟨rest, happend⟩
    -- each of the two is no longer than the other
    have hlength := congrArg List.length happend
    rw [List.length_append, List.length_append] at hlength
    obtain ⟨rfl, rfl⟩ := List.append_inj happend (by omega)
    have hsame := hleading'.leading?_eq
    rw [hleading.leading?_eq] at hsame
    cases hsame
    exact ⟨_, rfl, hread⟩
  · rintro ⟨rest, rfl, hread⟩
    obtain ⟨text', happend, hleading⟩ := exists_isLeading hread
    obtain rfl := List.append_cancel_right happend
    refine ⟨hleading, ⟨rest, rfl⟩, ?_⟩
    rintro text n' hleading' ⟨s, hs⟩
    obtain ⟨n'', rest', hread', hle⟩ := hleading'.leading?_append s
    rw [hs, hread] at hread'
    cases hread'
    have hlength := congrArg List.length hs
    rw [List.length_append, List.length_append] at hlength
    omega

theorem leading?_eq_none_iff :
    Numeral.leading? isDecimalDigit (line.dropWhile isBlank) = none ↔
      ∀ text n, IsLeading text n → ¬ text <+: line := by
  constructor
  · rintro hread text n hleading ⟨s, rfl⟩
    obtain ⟨n', rest, hread', -⟩ := hleading.leading?_append s
    rw [hread] at hread'
    cases hread'
  · intro h
    rw [Option.eq_none_iff_forall_ne_some]
    rintro ⟨n, rest⟩ hread
    obtain ⟨text, happend, hleading⟩ := exists_isLeading hread
    exact h text n hleading ⟨rest, happend⟩

theorem IsLeading.isPlain_iff (h : IsLeading text n) : n.isPlain = true ↔ IsPlainText text := by
  cases h with
  | @intro b w n hb hw =>
    have hdigits : (b ++ w).filter isDecimalDigit = n.whole ++ n.fraction ++ n.exponent := by
      have hnone : b.filter isDecimalDigit = [] := List.filter_eq_nil_iff.mpr fun c hc ↦
        Bool.eq_false_iff.mp (isDecimalDigit_of_isBlank (hb c hc))
      rw [List.filter_append, hnone, hw.filter_eq isDigitClass_isDecimalDigit, List.nil_append]
    rw [Numeral.isPlain, ← List.all_append, ← List.all_append, ← hdigits, List.all_filter,
      List.all_eq_true, IsPlainText]
    refine forall₂_congr fun c _ ↦ ?_
    cases isDecimalDigit c <;> simp

/-! ## The value -/

theorem exists_isLongestLeading_or (line : List Char) :
    (∃ text n, IsLongestLeading line text n) ∨ ∀ text n, IsLeading text n → ¬ text <+: line := by
  cases hread : Numeral.leading? isDecimalDigit (line.dropWhile isBlank) with
  | none => exact .inr (leading?_eq_none_iff.mp hread)
  | some r =>
    obtain ⟨text, happend, -⟩ := exists_isLeading hread
    exact .inl ⟨text, r.1, isLongestLeading_iff.mpr ⟨r.2, happend, hread⟩⟩

theorem IsLongestLeading.leadingValue_eq (h : IsLongestLeading line text n)
    (hplain : IsPlainText text) : leadingValue line = finite n.value := by
  obtain ⟨rest, -, hread⟩ := isLongestLeading_iff.mp h
  rw [leadingValue, hread]
  exact if_pos (h.1.isPlain_iff.mpr hplain)

/-- A line is refused if it does not begin with a number, or if the number has other digits. -/
theorem HasNoLeadingNumber.leadingValue_eq (h : HasNoLeadingNumber line) :
    leadingValue line = .error (.malformed (.noLeadingNumber line)) := by
  rw [leadingValue]
  rcases h with hnone | ⟨text, n, hlongest, hplain⟩
  · rw [leading?_eq_none_iff.mpr hnone]
  · obtain ⟨rest, -, hread⟩ := isLongestLeading_iff.mp hlongest
    rw [hread]
    exact if_neg fun h ↦ hplain (hlongest.1.isPlain_iff.mp h)

theorem leadingValue_eq_ok_iff {v : Float} : leadingValue line = .ok v ↔
    ∃ text n, IsLongestLeading line text n ∧ IsPlainText text ∧ ¬ n.Overflows ∧ n.value = v := by
  constructor
  · intro h
    rcases exists_isLongestLeading_or line with ⟨text, n, hlongest⟩ | hnone
    · by_cases hplain : IsPlainText text
      · rw [hlongest.leadingValue_eq hplain, finite_eq_ok_iff,
          Numeral.isFinite_value_iff (hlongest.1.isPlain_iff.mpr hplain)] at h
        exact ⟨text, n, hlongest, hplain, h.1, h.2⟩
      · rw [HasNoLeadingNumber.leadingValue_eq (.inr ⟨text, n, hlongest, hplain⟩)] at h
        cases h
    · rw [HasNoLeadingNumber.leadingValue_eq (.inl hnone)] at h
      cases h
  · rintro ⟨text, n, hlongest, hplain, hfinite, rfl⟩
    rw [hlongest.leadingValue_eq hplain, finite_eq_ok_iff,
      Numeral.isFinite_value_iff (hlongest.1.isPlain_iff.mpr hplain)]
    exact ⟨hfinite, rfl⟩

theorem leadingValue_eq_error_iff {e : Fault} : leadingValue line = .error e ↔
    (e = .malformed (.noLeadingNumber line) ∧ HasNoLeadingNumber line) ∨
    (e = .notFinite ∧
      ∃ text n, IsLongestLeading line text n ∧ IsPlainText text ∧ n.Overflows) := by
  constructor
  · intro h
    rcases exists_isLongestLeading_or line with ⟨text, n, hlongest⟩ | hnone
    · by_cases hplain : IsPlainText text
      · rw [hlongest.leadingValue_eq hplain, finite_eq_error_iff, ← Bool.not_eq_true,
          Numeral.isFinite_value_iff (hlongest.1.isPlain_iff.mpr hplain), Decidable.not_not] at h
        exact .inr ⟨h.2, text, n, hlongest, hplain, h.1⟩
      · have hrefused : HasNoLeadingNumber line := .inr ⟨text, n, hlongest, hplain⟩
        rw [hrefused.leadingValue_eq] at h
        exact .inl ⟨(Except.error.inj h).symm, hrefused⟩
    · rw [HasNoLeadingNumber.leadingValue_eq (.inl hnone)] at h
      exact .inl ⟨(Except.error.inj h).symm, .inl hnone⟩
  · rintro (⟨rfl, hrefused⟩ | ⟨rfl, text, n, hlongest, hplain, hover⟩)
    · exact hrefused.leadingValue_eq
    · rw [hlongest.leadingValue_eq hplain, finite_eq_error_iff, ← Bool.not_eq_true,
        Numeral.isFinite_value_iff (hlongest.1.isPlain_iff.mpr hplain), Decidable.not_not]
      exact ⟨hover, rfl⟩

theorem isFinite_of_evaluate {v : Float} (h : evaluate s = .ok v) : v.isFinite = true := by
  rw [evaluate] at h
  split at h
  · cases h
  · next t _ =>
    obtain ⟨hfinite, heq⟩ := finite_eq_ok_iff.mp h
    rwa [← heq]

/-- **The number on the display.** It is finite whenever there is one. If the line can be cleaned,
it is the value of the cleaned line, with all its faults. Otherwise it is the number that the line
begins with, in the longest text that is one: there is none if no text is, or if the text has a
digit that is not one of `0` to `9`, and it is too large exactly if the number overflows. -/
theorem currentValue_outcome (line : List Char) :
    (∀ v, currentValue line = .ok v → v.isFinite = true) ∧
    (∀ s, clean line = .ok s → currentValue line = evaluate s) ∧
    ∀ fault, clean line = .error fault →
      (∀ v, currentValue line = .ok v ↔
        ∃ text n, IsLongestLeading line text n ∧ IsPlainText text ∧ ¬ n.Overflows ∧ n.value = v) ∧
      ∀ e, currentValue line = .error e ↔
        (e = .malformed (.noLeadingNumber line) ∧ HasNoLeadingNumber line) ∨
        (e = .notFinite ∧
          ∃ text n, IsLongestLeading line text n ∧ IsPlainText text ∧ n.Overflows) := by
  have hcleaned : ∀ s, clean line = .ok s → currentValue line = evaluate s := by
    intro s h
    rw [currentValue, h]
  have hrefused : ∀ fault, clean line = .error fault → currentValue line = leadingValue line := by
    intro fault h
    rw [currentValue, h]
  refine ⟨fun v h ↦ ?_, hcleaned, fun fault hfault ↦ ?_⟩
  · cases hclean : clean line with
    | ok s =>
      rw [hcleaned s hclean] at h
      exact isFinite_of_evaluate h
    | error fault =>
      rw [hrefused fault hclean, leadingValue_eq_ok_iff] at h
      obtain ⟨text, n, hlongest, hplain, hover, rfl⟩ := h
      exact (Numeral.isFinite_value_iff (hlongest.1.isPlain_iff.mpr hplain)).mpr hover
  · rw [hrefused fault hfault]
    exact ⟨fun v ↦ leadingValue_eq_ok_iff, fun e ↦ leadingValue_eq_error_iff⟩

/-- A number stands in front of an equals sign. The Arabic three behind the one is a digit of it and
has no value, and ten to the power of 309 is beyond the largest double. -/
theorem currentValue_outcome_equals :
    clean "50%".toList = .ok "50".toList ∧
    currentValue "50%".toList = evaluate "50".toList ∧
    (∃ e, clean "-3=".toList = .error e) ∧ currentValue "-3=".toList = .ok (-3.0) ∧
    (-3.0 : Float).isFinite = true ∧
    (∃ e, clean "1\u0663=".toList = .error e) ∧ currentValue "1\u0663=".toList
      = .error (.malformed (.noLeadingNumber "1\u0663=".toList)) ∧
    (∃ e, clean " 1e309=".toList = .error e) ∧
    currentValue " 1e309=".toList = .error .notFinite := by
  have hclean : clean "50%".toList = .ok "50".toList := eq_ok_of_toOption (by decide +kernel)
  have hthree : IsLongestLeading "-3=".toList "-3".toList { isNegative := true, whole := ['3'] } :=
    isLongestLeading_iff.mpr ⟨['='], by decide, by decide +kernel⟩
  have harabic : IsLongestLeading "1\u0663=".toList "1\u0663".toList
      { whole := ['1', '\u0663'] } :=
    isLongestLeading_iff.mpr ⟨['='], by decide, by decide +kernel⟩
  have hlarge : IsLongestLeading " 1e309=".toList " 1e309".toList
      { whole := ['1'], exponent := ['3', '0', '9'] } :=
    isLongestLeading_iff.mpr ⟨['='], by decide, by decide +kernel⟩
  obtain ⟨_, h⟩ : ∃ e, clean "-3=".toList = .error e :=
    exists_of_toOption_eq_none (by decide +kernel)
  obtain ⟨_, h'⟩ : ∃ e, clean "1\u0663=".toList = .error e :=
    exists_of_toOption_eq_none (by decide +kernel)
  obtain ⟨_, h''⟩ : ∃ e, clean " 1e309=".toList = .error e :=
    exists_of_toOption_eq_none (by decide +kernel)
  have hvalue : currentValue "-3=".toList = .ok (-3.0) :=
    (((currentValue_outcome "-3=".toList).2.2 _ h).1 _).mpr
      ⟨_, _, hthree, hthree.1.isPlain_iff.mp (by decide), by decide +kernel, by decide +kernel⟩
  refine ⟨hclean, (currentValue_outcome "50%".toList).2.1 _ hclean, ⟨_, h⟩, hvalue,
    (currentValue_outcome "-3=".toList).1 _ hvalue, ⟨_, h'⟩, ?_, ⟨_, h''⟩, ?_⟩
  · refine (((currentValue_outcome "1\u0663=".toList).2.2 _ h').2 _).mpr
      (.inl ⟨rfl, .inr ⟨_, _, harabic, fun hplain ↦ ?_⟩⟩)
    exact absurd (harabic.1.isPlain_iff.mpr hplain) (by decide)
  · exact (((currentValue_outcome " 1e309=".toList).2.2 _ h'').2 _).mpr
      (.inr ⟨rfl, _, _, hlarge, hlarge.1.isPlain_iff.mp (by decide), by decide +kernel⟩)

end DeskCalculator
