import Mathlib.Data.List.Induction
import Mathlib.Data.Nat.Digits.Defs
import DeskCalculator.Number.Double
import DeskCalculator.Proofs.Number.Literal
import DeskCalculator.Proofs.Number.Nearest

/-!
# Reading a written magnitude back

The shortest decimal of a magnitude reads back as that magnitude: every candidate is tried before it
is taken, and the exact expansion, which is left if none is taken, reads back because it is the
magnitude itself. Written around a point, the decimal is a literal, and the zeros that are dropped
behind its last place do not change what it reads as.
-/

namespace DeskCalculator

namespace BinaryFormat

variable (f : BinaryFormat)

/-! ## The shortest decimal -/

theorem readsAs_exact {code : Nat} (h : code ≤ f.infinity) :
    f.readsAs code (f.exact code) = true := by
  have hfive : 0 < Nat.pow 5 f.grain := Nat.pow_pos (by decide)
  have hten : Nat.pow 10 f.grain = 2 ^ f.grain * Nat.pow 5 f.grain := Nat.mul_pow 2 5 f.grain
  rw [readsAs, exact, hten, nearest_mul_mul f _ _ hfive, nearest_grains f h, beq_self_eq_true]

theorem readsAs_of_onGrid? {code unit n : Nat} (h : f.onGrid? code unit = some n) :
    f.readsAs code n = true := by
  simp only [onGrid?] at h
  split at h
  · next hlow =>
    cases h
    exact (Bool.and_eq_true_iff.mp hlow).1
  · split at h
    · next hhigh =>
      cases h
      exact hhigh
    · cases h

theorem readsAs_shortest {code : Nat} (h : code ≤ f.infinity) :
    f.readsAs code (f.shortest code) = true := by
  simp only [shortest]
  cases hfind : (List.range mostDigits).findSome? fun i ↦
      f.onGrid? code (Nat.pow 10 ((Nat.toDigits 10 (f.exact code)).length - 1 - i)) with
  | none => exact f.readsAs_exact h
  | some n =>
    obtain ⟨i, -, hi⟩ := List.exists_of_findSome?_eq_some hfind
    exact f.readsAs_of_onGrid? hi

end BinaryFormat

/-! ## Reading a literal -/

/-- The digits of a literal without the point, as a natural number. -/
def Literal.significand (l : Literal) : Nat := l.numeral.significand

/-- A literal is neither too large nor too small to be computed, and has no other case. -/
theorem Literal.code_numeral (f : BinaryFormat) (l : Literal) :
    l.numeral.code f = f.nearest l.significand (10 ^ l.fraction.length) := by
  have hpower : l.numeral.power = -(l.fraction.length : Int) := by
    simp [Numeral.power, numeral]
  have hten : ∀ n, 0 < 10 ^ n := fun n ↦ Nat.pow_pos (by decide)
  have hsignificand : l.numeral.significand = l.significand := rfl
  have hlength : l.numeral.fraction.length = l.fraction.length := rfl
  rw [Numeral.code, hpower, hsignificand, hlength]
  split
  · next h => rw [h, f.nearest_zero (hten _)]
  · have htwo : (0 : Int) < Nat.pow 2 (f.exponent - 1) := by
      exact_mod_cast Nat.two_pow_pos (f.exponent - 1)
    rw [if_neg (by omega), if_neg (by omega)]
    split
    · next h =>
      have hnone : l.fraction.length = 0 := by omega
      rw [hnone]
      simp
    · rw [neg_neg, Int.toNat_natCast]
      rfl

/-! ## Writing around a point -/

@[simp] theorem Double.sign_true : Double.sign true = ['-'] := rfl

@[simp] theorem Double.sign_false : Double.sign false = [] := rfl

theorem Double.eq_of_mem_sign {b : Bool} {c : Char} (hc : c ∈ Double.sign b) : c = '-' := by
  rw [sign] at hc
  split at hc
  · exact List.mem_singleton.mp hc
  · cases hc

theorem length_paddedDigits {width n : Nat} (hw : 0 < width) (hn : n < 10 ^ width) :
    (paddedDigits width n).length = width := by
  have h := (Nat.length_toDigits_le_iff (by decide) hw).mpr hn
  simp only [paddedDigits, List.length_append, List.length_replicate]
  omega

theorem ofDigitChars_paddedDigits (width n init : Nat) (hw : 0 < width) (hn : n < 10 ^ width) :
    Nat.ofDigitChars 10 (paddedDigits width n) init = 10 ^ width * init + n := by
  rw [Nat.ofDigitChars_eq_ofDigitChars_zero, length_paddedDigits hw hn]
  simp only [paddedDigits]
  rw [Nat.ofDigitChars_append, Nat.ofDigitChars_replicate_zero, Nat.mul_zero,
    Nat.ofDigitChars_ten_toDigits]

theorem paddedDigits_succ {width d : Nat} (n : Nat) (hw : 0 < width) (hd : d < 10) :
    paddedDigits (width + 1) (10 * n + d) = paddedDigits width n ++ [d.digitChar] := by
  rcases Nat.eq_zero_or_pos n with rfl | hn
  -- the digit takes the place of the zero that zero is written as
  · simp only [paddedDigits, Nat.mul_zero, Nat.zero_add, Nat.toDigits_zero,
      Nat.toDigits_of_lt_base hd, List.length_singleton, Nat.add_sub_cancel]
    rw [← List.replicate_succ', Nat.sub_add_cancel hw]
  · have hdigits : Nat.toDigits 10 (10 * n + d) = Nat.toDigits 10 n ++ [d.digitChar] := by
      have hdiv : (10 * n + d) / 10 = n := by omega
      have hmod : (10 * n + d) % 10 = d := by omega
      rw [Nat.toDigits_eq_if (by decide), if_neg (by omega), hdiv, hmod]
    simp only [paddedDigits, hdigits, List.length_append, List.length_singleton,
      Nat.add_sub_add_right, List.append_assoc]

theorem paddedDigits_ofDigitChars {s : List Char} (hne : s ≠ [])
    (hs : ∀ c ∈ s, c.isDigit = true) :
    paddedDigits s.length (Nat.ofDigitChars 10 s 0) = s := by
  induction s using List.reverseRecOn with
  | nil => exact absurd rfl hne
  | append_singleton s c ih =>
    rw [List.forall_mem_append, List.forall_mem_singleton] at hs
    have hlt : c.toNat - 48 < 10 :=
      of_decide_eq_true (eq_of_isDigit (fun c ↦ decide (c.toNat - 48 < 10)) (by decide) hs.2)
    have hchar : (c.toNat - 48).digitChar = c :=
      beq_iff_eq.mp (eq_of_isDigit (fun c ↦ (c.toNat - 48).digitChar == c) (by decide) hs.2)
    have hvalue : Nat.ofDigitChars 10 (s ++ [c]) 0
        = 10 * Nat.ofDigitChars 10 s 0 + (c.toNat - 48) := by
      rw [Nat.ofDigitChars_append, Nat.ofDigitChars_cons, Nat.ofDigitChars_nil]
      rfl
    rw [hvalue, List.length_append, List.length_singleton]
    by_cases h : s = []
    · subst h
      rw [Nat.ofDigitChars_nil, Nat.mul_zero, Nat.zero_add, paddedDigits,
        Nat.toDigits_of_lt_base hlt, hchar]
      rfl
    · rw [paddedDigits_succ _ (List.length_pos_iff.mpr h) hlt, ih h hs.1, hchar]

theorem isDigit_of_mem_paddedDigits {width n : Nat} {c : Char} (hc : c ∈ paddedDigits width n) :
    c.isDigit = true := by
  rcases List.mem_append.mp hc with h | h
  · rw [List.eq_of_mem_replicate h]
    rfl
  · exact Nat.isDigit_of_mem_toDigits (by decide) (by decide) h

/-- What is dropped at the end is a number of zeros. -/
theorem exists_fractionDigits_append (places n : Nat) :
    ∃ k, fractionDigits places n ++ List.replicate k '0' = paddedDigits places n := by
  obtain ⟨zeros, hzeros, h⟩ := exists_dropEndWhile_append (· == '0') (paddedDigits places n)
  refine ⟨zeros.length, ?_⟩
  rw [← List.eq_replicate_of_mem fun c hc ↦ beq_iff_eq.mp (hzeros c hc)]
  exact h

/-- The writing of `n` units of `10⁻ᵖ` as a literal. -/
def written (places n : Nat) : Literal where
  whole := Nat.toDigits 10 (n / 10 ^ places)
  fraction := fractionDigits places (n % 10 ^ places)
  whole_ne_nil := Nat.toDigits_ne_nil
  isDigit_whole _ hc := Nat.isDigit_of_mem_toDigits (by decide) (by decide) hc
  isDigit_fraction c hc := by
    obtain ⟨k, hk⟩ := exists_fractionDigits_append places (n % 10 ^ places)
    have hmem : c ∈ paddedDigits places (n % 10 ^ places) := by
      rw [← hk]
      exact List.mem_append_left _ hc
    exact isDigit_of_mem_paddedDigits hmem

theorem text_written (places n : Nat) : (written places n).text = positional places n := rfl

theorem code_written (f : BinaryFormat) {places : Nat} (hp : 0 < places) (n : Nat) :
    (written places n).numeral.code f = f.nearest n (10 ^ places) := by
  have hten : ∀ n, 0 < 10 ^ n := fun n ↦ Nat.pow_pos (by decide)
  have hmod : n % 10 ^ places < 10 ^ places := Nat.mod_lt _ (hten places)
  obtain ⟨k, hk⟩ := exists_fractionDigits_append places (n % 10 ^ places)
  have hlength : (written places n).fraction.length + k = places := by
    have h := congrArg List.length hk
    rwa [List.length_append, List.length_replicate, length_paddedDigits hp hmod] at h
  -- the zeros that were dropped come back as a power of ten
  have hsignificand : (written places n).significand * 10 ^ k = n := by
    have h := ofDigitChars_paddedDigits places _ (n / 10 ^ places) hp hmod
    rw [Nat.div_add_mod, ← hk, Nat.ofDigitChars_append, Nat.ofDigitChars_replicate_zero] at h
    rw [Nat.mul_comm]
    simpa [Literal.significand, Numeral.significand, Literal.numeral, written,
      Nat.ofDigitChars_append] using h
  rw [Literal.code_numeral, ← f.nearest_mul_mul _ _ (hten k), hsignificand, ← Nat.pow_add, hlength]

/-- **The writing of a magnitude reads back as that magnitude.** -/
theorem code_written_shortest {f : BinaryFormat} (hg : 0 < f.grain) {code : Nat}
    (h : code ≤ f.infinity) : (written f.grain (f.shortest code)).numeral.code f = code := by
  rw [code_written f hg]
  exact beq_iff_eq.mp (f.readsAs_shortest h)

end DeskCalculator
