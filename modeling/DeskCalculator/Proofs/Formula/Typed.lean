import DeskCalculator.Formula.Tree
import DeskCalculator.Formula.Substitution
import DeskCalculator.Proofs.Number.Literal

/-!
# Typed formulas

A *typed formula* is an expression together with the choices that are made when it is typed: which
sign a product, a division or a power is typed with, whether the variable is a small or a capital
letter, where parentheses stand that need not, and which products are written without a sign.
Percentages, negations and operations are always in parentheses, so the text of a formula shows its
structure and no precedence is involved.

The parameter says whether a formula may have the variable and products without a sign. Only with a
value for the variable is such a formula read; without it a formula has neither.

Two texts would not be read as they are meant, and a legible formula avoids them. A percent sign
directly behind a number makes a percentage, so the left operand of a remainder may not be a bare
number. A product without a sign is seen only where its factors meet at a digit or a parenthesis.
-/

namespace DeskCalculator

/-! ## Signs -/

/-- The signs that an operation is typed with. -/
inductive Sign where
  | plus
  | minus
  | star
  | cross
  | slash
  | obelus
  | percent
  | caret
  | stars
  deriving DecidableEq, Repr

namespace Sign

/-- The operation of a sign. -/
def operator : Sign → Operator
  | plus => .plus
  | minus => .minus
  | star | cross => .times
  | slash | obelus => .divide
  | percent => .remainder
  | caret | stars => .power

/-- The text of a sign. -/
def text : Sign → List Char
  | plus => ['+']
  | minus => ['-']
  | star => ['*']
  | cross => ['×']
  | slash => ['/']
  | obelus => ['÷']
  | percent => ['%']
  | caret => ['^']
  | stars => ['*', '*']

/-- The same operation by a sign that is not a glyph. -/
def plain : Sign → Sign
  | cross => star
  | obelus => slash
  | caret => stars
  | s => s

end Sign

/-! ## Where factors may meet -/

/-- Between these two characters a product needs no sign. -/
def meet (c d : Char) : Bool :=
  ((isDecimalDigit c || c == ')') && (isVariable d || d == '(')) || (c == ')' && isDecimalDigit d)

/-! ## Formulas -/

/-- A formula as it is typed; with the variable and with products without a sign, if it is open. -/
inductive Typed (isOpen : Bool) where
  | literal (l : Literal)
  /-- A number with a percent sign. -/
  | percentage (l : Literal)
  /-- The variable. -/
  | letter (h : isOpen = true) (isCapital : Bool)
  /-- A formula in parentheses that it does not need. -/
  | grouped (a : Typed isOpen)
  | negate (a : Typed isOpen)
  | binary (s : Sign) (a b : Typed isOpen)
  /-- A product without a sign, with blanks or nothing between its factors. -/
  | product (h : isOpen = true) (blanks : List Char) (a b : Typed isOpen)

namespace Typed

variable {isOpen : Bool}

/-- The text of a formula. -/
@[simp] def text : Typed isOpen → List Char
  | literal l => l.text
  | percentage l => '(' :: l.text ++ ['%', ')']
  | letter _ isCapital => [if isCapital then 'X' else 'x']
  | grouped a => '(' :: a.text ++ [')']
  | negate a => '(' :: '-' :: a.text ++ [')']
  | binary s a b => '(' :: a.text ++ (s.text ++ (b.text ++ [')']))
  | product _ blanks a b => '(' :: a.text ++ (blanks ++ (b.text ++ [')']))

/-- The value of a formula where the variable has the value `x`. -/
@[simp] def value (x : Float) : Typed isOpen → Float
  | literal l => l.value
  | percentage l => l.value / 100.0
  | letter _ _ => x
  | grouped a => a.value x
  | negate a => -a.value x
  | binary s a b => s.operator.apply (a.value x) (b.value x)
  | product _ _ a b => a.value x * b.value x

/-- Whether a formula is a bare number. -/
def isLiteral : Typed isOpen → Bool
  | literal _ => true
  | _ => false

/-- A formula that is read as it is meant. -/
def IsLegible : Typed isOpen → Prop
  | literal _ | percentage _ | letter _ _ => True
  | grouped a | negate a => a.IsLegible
  | binary s a b => a.IsLegible ∧ b.IsLegible ∧ (s = .percent → a.isLiteral = false)
  | product _ blanks a b =>
    a.IsLegible ∧ b.IsLegible ∧ blanks.all isBlank = true ∧
      a.text.getLast?.any (fun c ↦ b.text.head?.any (meet c)) = true

/-- Whether a formula is legible is seen from its text. -/
def decideLegible : (t : Typed isOpen) → Decidable t.IsLegible
  | literal _ | percentage _ | letter _ _ => inferInstanceAs (Decidable True)
  | grouped a | negate a => a.decideLegible
  | binary s a b =>
    have := a.decideLegible
    have := b.decideLegible
    inferInstanceAs (Decidable (_ ∧ _ ∧ (s = .percent → a.isLiteral = false)))
  | product _ blanks a b =>
    have := a.decideLegible
    have := b.decideLegible
    inferInstanceAs (Decidable (_ ∧ _ ∧ blanks.all isBlank = true ∧
      a.text.getLast?.any (fun c ↦ b.text.head?.any (meet c)) = true))

instance (t : Typed isOpen) : Decidable t.IsLegible := t.decideLegible

/-- The formula with all its glyphs spelled out. -/
@[simp] def plain : Typed isOpen → Typed isOpen
  | literal l => literal l
  | percentage l => percentage l
  | letter h isCapital => letter h isCapital
  | grouped a => grouped a.plain
  | negate a => negate a.plain
  | binary s a b => binary s.plain a.plain b.plain
  | product h blanks a b => product h blanks a.plain b.plain

/-! ## The ends of a text -/

/-- The characters that a formula may end with. -/
def IsLast (c : Char) : Prop := c.isDigit = true ∨ c = ')' ∨ isVariable c = true

theorem exists_text_eq_append (t : Typed isOpen) :
    ∃ s c, t.text = s ++ [c] ∧ IsLast c ∧ (t.isLiteral = false → c.isDigit = false) := by
  cases t with
  | literal l =>
    obtain ⟨s, c, hs, hc⟩ := l.exists_text_eq_append
    exact ⟨s, c, hs, .inl hc, by simp [isLiteral]⟩
  | percentage l =>
    exact ⟨'(' :: l.text ++ ['%'], ')', by simp [text], .inr (.inl rfl), fun _ ↦ rfl⟩
  | letter _ isCapital =>
    cases isCapital
    · exact ⟨[], 'x', rfl, .inr (.inr rfl), fun _ ↦ rfl⟩
    · exact ⟨[], 'X', rfl, .inr (.inr rfl), fun _ ↦ rfl⟩
  | grouped a => exact ⟨'(' :: a.text, ')', rfl, .inr (.inl rfl), fun _ ↦ rfl⟩
  | negate a => exact ⟨'(' :: '-' :: a.text, ')', rfl, .inr (.inl rfl), fun _ ↦ rfl⟩
  | binary s a b =>
    exact ⟨'(' :: a.text ++ (s.text ++ b.text), ')', by simp [text], .inr (.inl rfl), fun _ ↦ rfl⟩
  | product _ w a b =>
    exact ⟨'(' :: a.text ++ (w ++ b.text), ')', by simp [text], .inr (.inl rfl), fun _ ↦ rfl⟩

end Typed

end DeskCalculator
