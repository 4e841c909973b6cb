import DeskCalculator.Proofs.Formula.CleanLine
import DeskCalculator.Proofs.Formula.Evaluation
import DeskCalculator.Proofs.Number.Packed
import DeskCalculator.Proofs.Number.Shortest

/-!
# Lines that are a number

A number on a line of its own is a literal, behind a minus sign if it is negative. Such a line is
clean. As an expression it is the literal or its negation, as a numeral it is the literal with the
sign, and the two have the same value.
-/

namespace DeskCalculator

namespace Literal

variable (b : Bool) (l : Literal)

/-- The numeral of a literal behind a sign. -/
def signed : Numeral := { l.numeral with isNegative := b }

theorem value_signed : (l.signed b).value = Double.ofCode b (l.numeral.code .double) := rfl

@[simp] theorem leading?_sign_append :
    Numeral.leading? Char.isDigit (Double.sign b ++ l.text) = some (l.signed b, []) := by
  have hsign : Numeral.sign (Double.sign b ++ l.text) = (b, l.text) := by
    obtain ⟨c, s, hs, hc⟩ := l.exists_text_eq_cons
    cases b with
    | true => rfl
    | false =>
      rw [Double.sign_false, List.nil_append, hs, Numeral.sign]
      · rintro s' ⟨⟩
        exact absurd hc (by decide)
      · rintro s' ⟨⟩
        exact absurd hc (by decide)
  have hread : Numeral.unsigned Char.isDigit l.text = (l.numeral, []) := by
    have h := l.unsigned_text_append isEnd_nil
    rwa [List.append_nil] at h
  have hwhole : l.numeral.whole.isEmpty = false := List.isEmpty_eq_false_iff.mpr l.whole_ne_nil
  simp only [Numeral.leading?, hsign, hread, hwhole, Bool.false_and, if_neg Bool.false_ne_true]
  rfl

/-! ## The line -/

theorem isCleaned_sign_append : IsCleaned (Double.sign b ++ l.text) := by
  obtain ⟨s, d, hs, hd⟩ := l.exists_text_eq_append
  refine ⟨?_, fun c hc ↦ ?_, fun c hc ↦ ?_, isChain_of_ne_percent ?_⟩
  · rw [hs, ← List.append_assoc]
    exact List.concat_ne_nil _ _
  · rcases List.mem_append.mp hc with h | h
    · rw [Double.eq_of_mem_sign h]
      decide
    · exact Typed.isCleanChar_of_mem_text h
  · rw [hs, ← List.append_assoc, List.getLast?_concat] at hc
    cases hc
    exact eq_of_isDigit isUnfinished (by decide) hd
  · rintro c hc rfl
    rcases List.mem_append.mp hc with h | h
    · exact absurd (Double.eq_of_mem_sign h) (by decide)
    · exact absurd (l.isDigit_or_eq_point _ h) (by decide)

/-- The tree of a literal behind a sign. -/
def signedTree : Tree := if b then .negate (.number l.value) else .number l.value

@[simp] theorem parse_sign_append : parse (Double.sign b ++ l.text) = .ok (l.signedTree b) := by
  have hscan : Token.Scans l.text [.number l.value] [] :=
    Token.scans_literal l isEnd_nil
  cases b with
  | true =>
    have hminus : Token.Scans ['-'] [.operator .minus] (l.text ++ []) :=
      Token.scans_symbol rfl (by decide) fun _ _ h ↦ absurd h (by decide)
    exact parse_of_scans (hminus.append hscan)
      (.sum_of_product (.product_of_signed (.minus (Derives.number l.value).signed_of_atom)))
  | false => exact parse_of_scans hscan (Derives.number l.value).sum_of_atom

@[simp] theorem value_signedTree : (l.signedTree b).value = (l.signed b).value := by
  cases b with
  | true =>
    have hcode : l.numeral.code .double ≤ BinaryFormat.double.infinity := by
      rw [code_numeral]
      exact Nat.min_le_left _ _
    exact Double.neg_ofCode hcode
  | false => rfl

/-- **A line that is a number has the value of the number.** -/
theorem evaluateLine_sign_append :
    evaluateLine (Double.sign b ++ l.text) = finite (l.signed b).value := by
  rw [evaluateLine, (l.isCleaned_sign_append b).clean_eq]
  change evaluate (Double.sign b ++ l.text) = _
  rw [evaluate, parse_sign_append]
  exact congrArg finite (l.value_signedTree b)

end Literal

end DeskCalculator
