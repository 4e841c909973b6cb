import Mathlib.Algebra.Group.Nat.Defs
import Mathlib.Data.List.Basic
import DeskCalculator.Formula.Value
import DeskCalculator.Operation.Root
import DeskCalculator.Proofs.Number.Shortest
import DeskCalculator.Proofs.Number.Written
import DeskCalculator.Proofs.Refusal

/-!
# Answers

An answer to a prompt is read without the blanks around it. What is left is a degree or a value of
the variable, or else the answer is refused as not numeric, with that text in the fault.

A degree is written in the digits `0` to `9`, and its number is positive and has at most thirty-two
bits. Zeros in front do not count, however many there are: digits are the writing of their number
in as many digits, so that nothing but zeros stands in front of the shortest writing.

A value of the variable is a sign or none, digits, and digits behind a point if there is one. Digits
of all scripts make up the form, but only the digits `0` to `9` make up a number, and a value is
both. There is no bound on its size.
-/

namespace DeskCalculator

variable {answer text s : List Char} {n : Nat}

/-! ## The text of an answer -/

/-- The answer is the text with blanks around it, and the text has no blank at its ends. -/
structure IsTrimmed (answer text : List Char) : Prop where
  exists_blanks : ∃ a b, (∀ c ∈ a, isBlank c = true) ∧ (∀ c ∈ b, isBlank c = true) ∧
    a ++ (text ++ b) = answer
  head : ∀ c ∈ text.head?, isBlank c = false
  last : ∀ c ∈ text.getLast?, isBlank c = false

theorem isTrimmed_trim (answer : List Char) : IsTrimmed answer (trim answer) := by
  obtain ⟨b, hb, happend⟩ := exists_dropEndWhile_append isBlank (answer.dropWhile isBlank)
  refine ⟨⟨answer.takeWhile isBlank, b, List.all_eq_true.mp List.all_takeWhile, hb, ?_⟩, ?_,
    getLast?_dropEndWhile isBlank _⟩
  · rw [trim, happend, List.takeWhile_append_dropWhile]
  · intro c hc
    refine head?_dropWhile_eq_false isBlank answer c ?_
    rw [← happend]
    exact List.mem_head?_append_of_mem_head? hc

/-- **Trimming gives the one text that the answer has between blanks.** -/
theorem trim_eq_iff : trim answer = text ↔ IsTrimmed answer text := by
  constructor
  · rintro rfl
    exact isTrimmed_trim answer
  · rintro ⟨⟨a, b, ha, hb, rfl⟩, hhead, hlast⟩
    rw [trim, List.dropWhile_append_of_pos ha]
    cases text with
    -- without a text the blanks behind it are blanks in front
    | nil =>
      have hnone := dropWhile_stretch hb fun c (hc : c ∈ ([] : List Char).head?) ↦ nomatch hc
      rw [List.append_nil] at hnone
      rw [List.nil_append, hnone]
      rfl
    | cons c text =>
      rw [dropWhile_of_head fun d (hd : d ∈ (c :: text ++ b).head?) ↦ hhead d hd,
        dropEndWhile_append_of_pos hb, dropEndWhile_eq_self hlast]

/-! ## Degrees -/

/-- The text is digits `0` to `9`, and its number is positive and has at most thirty-two bits. -/
structure IsDegree (text : List Char) (n : Nat) : Prop where
  ne_nil : text ≠ []
  isDigit : ∀ c ∈ text, c.isDigit = true
  value : Nat.ofDigitChars 10 text 0 = n
  one_le : 1 ≤ n
  le : n ≤ 2 ^ 32 - 1

/-- **A degree is the writing of its number, with zeros in front or without.** -/
theorem isDegree_iff : IsDegree text n ↔
    (1 ≤ n ∧ n ≤ 2 ^ 32 - 1) ∧ ∃ k, text = List.replicate k '0' ++ Nat.toDigits 10 n := by
  constructor
  · rintro ⟨hne, hdigit, rfl, hpos, hle⟩
    exact ⟨⟨hpos, hle⟩, _, (paddedDigits_ofDigitChars hne hdigit).symm⟩
  · rintro ⟨⟨hpos, hle⟩, k, rfl⟩
    refine ⟨List.append_ne_nil_of_right_ne_nil _ Nat.toDigits_ne_nil, ?_, ?_, hpos, hle⟩
    · rw [List.forall_mem_append]
      refine ⟨fun c hc ↦ ?_, fun c hc ↦ Nat.isDigit_of_mem_toDigits (by decide) (by decide) hc⟩
      rw [List.eq_of_mem_replicate hc]
      rfl
    · rw [Nat.ofDigitChars_append, Nat.ofDigitChars_replicate_zero, Nat.mul_zero,
        Nat.ofDigitChars_ten_toDigits]

theorem readDegree_of_isDegree (h : IsDegree (trim answer) n) : readDegree answer = .ok n := by
  obtain ⟨hne, hdigit, hvalue, hpos, hle⟩ := h
  have hempty : (trim answer).isEmpty = false := List.isEmpty_eq_false_iff.mpr hne
  have hall : (trim answer).all Char.isDigit = true := List.all_eq_true.mpr hdigit
  have hlt : n < Nat.pow 2 32 := by
    rw [Nat.pow_eq]
    omega
  simp only [readDegree, hvalue, hempty, hall, Bool.not_false, Bool.true_and]
  exact if_pos (Bool.and_eq_true_iff.mpr ⟨decide_eq_true hpos, decide_eq_true hlt⟩)

theorem readDegree_of_not_isDegree (h : ∀ n, ¬ IsDegree (trim answer) n) :
    readDegree answer = .error (.notNumeric (trim answer)) := by
  simp only [readDegree]
  split
  · next hread =>
    simp only [Bool.and_eq_true, Bool.not_eq_true', decide_eq_true_iff, Nat.pow_eq] at hread
    obtain ⟨⟨⟨hempty, hall⟩, hpos⟩, hlt⟩ := hread
    have hne : trim answer ≠ [] := List.isEmpty_eq_false_iff.mp hempty
    exact absurd ⟨hne, List.all_eq_true.mp hall, rfl, hpos, by omega⟩ (h _)
  · rfl

/-! ## Decimals -/

namespace Numeral

/-- A sign or none, digits, and digits behind a point if there is one. -/
inductive IsDecimal (isDigit : Char → Bool) : List Char → Numeral → Prop where
  | whole {t w : List Char} {b : Bool} (ht : IsSign t b) (hw : w ≠ [])
      (hwhole : ∀ c ∈ w, isDigit c = true) :
      IsDecimal isDigit (t ++ w) { isNegative := b, whole := w }
  | pointed {t w f : List Char} {b : Bool} (ht : IsSign t b) (hw : w ≠ [])
      (hwhole : ∀ c ∈ w, isDigit c = true) (hf : f ≠ []) (hfraction : ∀ c ∈ f, isDigit c = true) :
      IsDecimal isDigit (t ++ (w ++ '.' :: f)) { isNegative := b, whole := w, fraction := f }

variable {isDigit : Char → Bool} {t m w f : List Char} {b : Bool} {n : Numeral}

theorem IsMantissa.isDecimal (hm : IsMantissa isDigit m w f) (ht : IsSign t b) (hw : w ≠ [])
    (hf : '.' ∈ m → f ≠ []) :
    IsDecimal isDigit (t ++ m) { isNegative := b, whole := w, fraction := f } := by
  cases hm with
  | whole _ hwhole => exact .whole ht hw hwhole
  | pointed _ hwhole hfraction =>
    have hpoint : '.' ∈ w ++ '.' :: f := List.mem_append_right _ List.mem_cons_self
    exact .pointed ht hw hwhole (hf hpoint) hfraction

namespace IsDecimal

theorem exists_isMantissa (h : IsDecimal isDigit s n) (hp : isDigit '.' = false) :
    ∃ t m, t ++ m = s ∧ IsSign t n.isNegative ∧ IsMantissa isDigit m n.whole n.fraction ∧
      n.whole ≠ [] ∧ ('.' ∈ m → n.fraction ≠ []) ∧
      n = { isNegative := n.isNegative, whole := n.whole, fraction := n.fraction } := by
  cases h with
  | whole ht hw hwhole =>
    refine ⟨_, _, rfl, ht, .whole hw hwhole, hw, fun hpoint ↦ ?_, rfl⟩
    exact absurd (hwhole '.' hpoint) (Bool.eq_false_iff.mp hp)
  | pointed ht hw hwhole hf hfraction =>
    exact ⟨_, _, rfl, ht, .pointed (List.append_ne_nil_of_left_ne_nil hw _) hwhole hfraction, hw,
      fun _ ↦ hf, rfl⟩

theorem imp {isDigit' : Char → Bool} (h : IsDecimal isDigit s n)
    (himp : ∀ c ∈ s, isDigit c = true → isDigit' c = true) : IsDecimal isDigit' s n := by
  cases h with
  | whole ht hw hwhole =>
    rw [List.forall_mem_append] at himp
    exact .whole ht hw fun c hc ↦ himp.2 c hc (hwhole c hc)
  | pointed ht hw hwhole hf hfraction =>
    rw [List.forall_mem_append, List.forall_mem_append, List.forall_mem_cons] at himp
    exact .pointed ht hw (fun c hc ↦ himp.2.1 c hc (hwhole c hc)) hf
      fun c hc ↦ himp.2.2.2 c hc (hfraction c hc)

theorem isNumber (h : IsDecimal isDigit s n) (hp : isDigit '.' = false) :
    IsNumber isDigit s n := by
  obtain ⟨t, m, rfl, ht, hm, -, -, hn⟩ := h.exists_isMantissa hp
  rw [hn, ← List.append_nil m]
  exact .intro ht hm .none

end IsDecimal

/-- What is read to the end as a sign and digits around a point is decimal, if digits are read in
front of the point, and behind it if there is one. -/
theorem exists_isDecimal (hw : (unsigned isDigit (sign s).2).1.whole ≠ [])
    (hf : '.' ∈ (sign s).2 → (unsigned isDigit (sign s).2).1.fraction ≠ [])
    (hrest : (unsigned isDigit (sign s).2).2 = []) : ∃ n, IsDecimal isDigit s n := by
  have hdigits : ¬ ((unsigned isDigit (sign s).2).1.whole.isEmpty
      && (unsigned isDigit (sign s).2).1.fraction.isEmpty) = true := by
    rw [List.isEmpty_eq_false_iff.mpr hw]
    exact Bool.false_ne_true
  obtain ⟨t, ht, hsign⟩ := exists_isSign s
  obtain ⟨m, hm, hmantissa⟩ := exists_isMantissa hdigits
  rw [hrest, List.append_nil] at hm
  subst hm
  have h := hmantissa.isDecimal hsign hw hf
  rw [ht] at h
  exact ⟨_, h⟩

theorem IsNumber.isDigit_or_mem (h : IsNumber isDigit s n) :
    ∀ c ∈ s, isDigit c = true ∨ c ∈ ['.', '+', '-', 'e', 'E'] := by
  have hsign : ∀ {t b}, IsSign t b → ∀ c ∈ t, c ∈ ['.', '+', '-', 'e', 'E'] := by
    rintro t b (_ | _ | _)
    · exact nofun
    · exact List.forall_mem_singleton.mpr (by decide)
    · exact List.forall_mem_singleton.mpr (by decide)
  cases h with
  | @intro t m w f e d b b' ht hm he =>
    rw [List.forall_mem_append, List.forall_mem_append]
    refine ⟨fun c hc ↦ .inr (hsign ht c hc), fun c hc ↦ ?_, fun c hc ↦ ?_⟩
    · refine (hm.isDigit_or_eq_point c hc).imp_right ?_
      rintro rfl
      exact List.mem_cons_self
    · cases he with
      | none => cases hc
      | some hletter ht hne hd =>
        rw [List.mem_cons, List.mem_append] at hc
        rcases hc with rfl | hc | hc
        · rcases hletter with rfl | rfl <;> exact .inr (by decide)
        · exact .inr (hsign ht c hc)
        · exact .inl (hd c hc)

/-- **A text is a decimal in the digits `0` to `9` if it is one in digits of all scripts and is read
to its end as a number.** -/
theorem isDecimal_isDigit_iff : IsDecimal Char.isDigit s n ↔
    IsDecimal isDecimalDigit s n ∧ ∃ n', leading? Char.isDigit s = some (n', []) := by
  constructor
  · intro h
    exact ⟨h.imp fun c _ hc ↦ isDecimalDigit_of_isDigit hc, n,
      (h.isNumber rfl).leading?_eq isDigitClass_isDigit⟩
  · rintro ⟨h, n', hread⟩
    obtain ⟨w, rfl, hnumber⟩ := exists_isNumber hread
    rw [List.append_nil] at h
    rw [List.append_nil]
    refine h.imp fun c hc hdigit ↦ (hnumber.isDigit_or_mem c hc).resolve_right fun hmark ↦ ?_
    -- none of the other characters of a number is a digit of any script
    have hnone : ∀ c ∈ ['.', '+', '-', 'e', 'E'], ¬ isDecimalDigit c = true :=
      List.any_eq_false.mp (by decide)
    exact hnone c hmark hdigit

end Numeral

open Numeral (IsDecimal)

/-! ## Values of the variable -/

/-- The text is a decimal in the digits `0` to `9`, with this value. -/
def IsVariableValue (text : List Char) (v : Float) : Prop :=
  ∃ n, IsDecimal Char.isDigit text n ∧ n.value = v

theorem readAnswer_of_isDecimal {n : Numeral} (h : IsDecimal Char.isDigit (trim answer) n) :
    readAnswer answer = .ok n.value := by
  obtain ⟨t, m, happend, ht, hm, hw, hf, hn⟩ := h.exists_isMantissa rfl
  have hsign := ht.sign_append_mantissa hm Numeral.isDigitClass_isDigit []
  have hread := hm.unsigned_append rfl fun c (hc : c ∈ ([] : List Char).head?) ↦ nomatch hc
  rw [List.append_nil] at hsign hread
  rw [happend] at hsign
  have hfraction : ¬ ('.' ∈ m ∧ n.fraction = []) := fun hpoint ↦ hf hpoint.1 hpoint.2
  simp only [readAnswer, hsign, hread]
  rw [if_neg (by simp [hw, hfraction]), ← hn]

theorem readAnswer_of_not_isDecimal (h : ∀ n, ¬ IsDecimal Char.isDigit (trim answer) n) :
    readAnswer answer = .error (.notNumeric (trim answer)) := by
  simp only [readAnswer]
  split
  · rfl
  · next hread =>
    rw [Bool.not_eq_true, Bool.or_eq_false_iff, Bool.or_eq_false_iff, Bool.not_eq_false',
      List.isEmpty_iff, List.isEmpty_eq_false_iff, Bool.and_eq_false_iff] at hread
    obtain ⟨⟨hw, hpoint⟩, hrest⟩ := hread
    refine absurd (Numeral.exists_isDecimal hw (fun hmem ↦ ?_) hrest) (not_exists.mpr h)
    have hcontains : (Numeral.sign (trim answer)).2.contains '.' = true :=
      List.contains_iff_mem.mpr hmem
    rw [hcontains] at hpoint
    exact List.isEmpty_eq_false_iff.mp (hpoint.resolve_left nofun)

/-! ## The two readings -/

/-- **An answer is what was asked for, or it is refused as not numeric.** What counts is the text
between the blanks. A degree is digits `0` to `9` with a number of at most thirty-two bits, which is
the writing of a positive number behind any number of zeros. A value of the variable is a decimal in
the digits `0` to `9`: the text has the form in digits of all scripts and is read to its end as a
number. Whatever else is answered is refused, and the fault has the text. -/
theorem promptAnswer_outcome (answer : List Char) :
    (∀ text, trim answer = text ↔ IsTrimmed answer text) ∧
    (∀ n, readDegree answer = .ok n ↔ IsDegree (trim answer) n) ∧
    (∀ e, readDegree answer = .error e ↔
      e = .notNumeric (trim answer) ∧ ∀ n, ¬ IsDegree (trim answer) n) ∧
    (∀ n, IsDegree (trim answer) n ↔ (1 ≤ n ∧ n ≤ 2 ^ 32 - 1) ∧
      ∃ k, trim answer = List.replicate k '0' ++ Nat.toDigits 10 n) ∧
    (∀ v, readAnswer answer = .ok v ↔ IsVariableValue (trim answer) v) ∧
    (∀ e, readAnswer answer = .error e ↔
      e = .notNumeric (trim answer) ∧ ∀ v, ¬ IsVariableValue (trim answer) v) ∧
    ∀ n, IsDecimal Char.isDigit (trim answer) n ↔ IsDecimal isDecimalDigit (trim answer) n ∧
      ∃ n', Numeral.leading? Char.isDigit (trim answer) = some (n', []) := by
  obtain ⟨hdegree, hnoDegree⟩ :=
    outcome_iff (fun _ ↦ readDegree_of_isDegree) (@readDegree_of_not_isDegree answer)
  have hread : ∀ v, IsVariableValue (trim answer) v → readAnswer answer = .ok v := by
    rintro _ ⟨n, hn, rfl⟩
    exact readAnswer_of_isDecimal hn
  obtain ⟨hvalue, hnoValue⟩ := outcome_iff hread fun hnone ↦
    readAnswer_of_not_isDecimal fun n hn ↦ hnone n.value ⟨n, hn, rfl⟩
  exact ⟨fun _ ↦ trim_eq_iff, hdegree, hnoDegree, fun _ ↦ isDegree_iff, hvalue, hnoValue,
    fun _ ↦ Numeral.isDecimal_isDigit_iff⟩

-- blanks of any kind around a degree, and zeros in front of it
example : (readDegree "\u3000007\u00a0".toList).toOption = some 7 := by decide

-- a value may be too large for a double; then it is infinite
example : (readAnswer (List.replicate 310 '9')).toOption.map Float.isFinite = some false := by
  decide +kernel

end DeskCalculator
