import DeskCalculator.Formula.Cleaned
import DeskCalculator.Formula.Token

/-!
# A value in place of the variable

A product may be written without its sign next to the variable and to parentheses: `2x`, `)x`,
`2(`, `)(`, `)2`, with blanks in between or without. Before the variable is replaced, every such
product gets its sign; the blanks go.

Each kind of product is a rule, and the rules are applied one after the other to the whole line.
Then every `x` becomes the value in parentheses, as it is written.
-/

namespace DeskCalculator

/-- A kind of product that is written without its sign: what ends its left factor and what begins
its right one. -/
structure ImplicitProduct where
  left : Char → Bool
  right : Char → Bool

namespace ImplicitProduct

/-- A line with the sign written in every product of this kind. -/
def expand (p : ImplicitProduct) : List Char → List Char
  | [] => []
  | c :: s =>
    if p.left c && (s.dropWhile isBlank).head?.any p.right then
      c :: '*' :: expand p (s.dropWhile isBlank)
    else c :: expand p s
termination_by s => s.length
decreasing_by
  · exact Nat.lt_succ_of_le (length_dropWhile_le _ s)
  · exact Nat.lt_succ_self _

/-- The kinds of products without a sign. -/
def all : List ImplicitProduct :=
  [⟨isDecimalDigit, isVariable⟩, ⟨(· == ')'), isVariable⟩, ⟨isDecimalDigit, (· == '(')⟩,
    ⟨(· == ')'), (· == '(')⟩, ⟨(· == ')'), isDecimalDigit⟩]

end ImplicitProduct

/-- A line with the glyphs spelled out and all products signed. -/
def signProducts (line : List Char) : List Char :=
  ImplicitProduct.all.foldl (fun s p ↦ p.expand s) (spellOut line)

/-- A line with a value, as it is written, in place of the variable. -/
def substitute (line value : List Char) : List Char :=
  (signProducts line).flatMap fun c ↦ if isVariable c then '(' :: value ++ [')'] else [c]

end DeskCalculator
