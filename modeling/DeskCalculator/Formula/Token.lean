import DeskCalculator.Fault
import DeskCalculator.Number.Numeral
import DeskCalculator.Text.Blank

/-!
# Tokens of an expression

A cleaned line is cut into tokens from left to right, each as long as it can be: two stars are one
power sign, and a number takes all digits around its point. The text of a number is cut off before
it is read. Blanks separate and are otherwise skipped. Two numbers side by side are two tokens; that
this is no expression is not decided here.
-/

namespace DeskCalculator

/-- The binary operators. -/
inductive Operator where
  | plus
  | minus
  | times
  | divide
  | remainder
  | power
  deriving DecidableEq, Repr

/-- The sign of an operator. A power is typed as two stars and listed with this sign. -/
def Operator.symbol : Operator → Char
  | plus => '+'
  | minus => '-'
  | times => '*'
  | divide => '/'
  | remainder => '%'
  | power => '^'

/-- The words of an expression. -/
inductive Token where
  | number (v : Float)
  | operator (o : Operator)
  | openParen
  | closeParen
  deriving DecidableEq

namespace Token

/-- The token of a single character. A star that begins a power sign is not asked for here. -/
def ofSymbol? : Char → Option Token
  | '(' => some openParen
  | ')' => some closeParen
  | '+' => some (operator .plus)
  | '-' => some (operator .minus)
  | '*' => some (operator .times)
  | '/' => some (operator .divide)
  | '%' => some (operator .remainder)
  | _ => none

/-- The writing of a token. -/
def text : Token → List Char
  | number v => Double.text v
  | operator o => [o.symbol]
  | openParen => ['(']
  | closeParen => [')']

/-- The writing of a list of tokens, a space between two. -/
def listText : List Token → List Char
  | [] => []
  | [t] => t.text
  | t :: ts => t.text ++ ' ' :: listText ts

end Token

/-- The variable, in either case. -/
def isVariable (c : Char) : Bool := c == 'x' || c == 'X'

/-- The characters that begin a number. -/
def beginsNumber (c : Char) : Bool := c.isDigit || c == '.'

/-- The text of a number at the head of a line, and the rest of the line: the digits, and behind them
a point with the digits that follow it. -/
def numberText (s : List Char) : List Char × List Char :=
  let whole := s.takeWhile Char.isDigit
  match s.dropWhile Char.isDigit with
  | '.' :: rest => (whole ++ '.' :: rest.takeWhile Char.isDigit, rest.dropWhile Char.isDigit)
  | rest => (whole, rest)

/-- The text of a number has at least the first character of the line. -/
theorem length_numberText_lt {c : Char} (s : List Char) (h : beginsNumber c = true) :
    (numberText (c :: s)).2.length < (c :: s).length := by
  have hs := length_dropWhile_le Char.isDigit s
  simp only [beginsNumber, Bool.or_eq_true, beq_iff_eq] at h
  rcases h with h | rfl
  · simp only [numberText, List.dropWhile_cons, h, if_true]
    split
    · next rest heq =>
      have hr := length_dropWhile_le Char.isDigit rest
      rw [heq] at hs
      simp only [List.length_cons] at *
      omega
    · simp only [List.length_cons]
      omega
  · have hp : Char.isDigit '.' = false := by decide
    simp only [numberText, List.dropWhile_cons, hp, Bool.false_eq_true, if_false]
    simp only [List.length_cons]
    omega

namespace Token

/-- The tokens of a line, or the leftmost reason why it has none. -/
def scan : List Char → Except Malformed (List Token)
  | [] => .ok []
  | '*' :: '*' :: s => (operator .power :: ·) <$> scan s
  | c :: s =>
    if isBlank c then scan s
    else if let some t := ofSymbol? c then (t :: ·) <$> scan s
    else if isVariable c then .error .unknownVariable
    else if _ : beginsNumber c = true then
      let w := numberText (c :: s)
      if w.1 = ['.'] then .error .lonePoint
      else match Numeral.leading? Char.isDigit w.1 with
        | some (n, []) => (number n.value :: ·) <$> scan w.2
        | _ => .error (.invalidNumber w.1)
    else .error (.unexpected c)
termination_by s => s.length
decreasing_by
  · exact Nat.lt_succ_of_lt (Nat.lt_succ_self _)
  · exact Nat.lt_succ_self _
  · exact Nat.lt_succ_self _
  · exact length_numberText_lt s (by assumption)

end Token

end DeskCalculator
