import DeskCalculator.Fault
import DeskCalculator.Text.Blank
import DeskCalculator.Text.DecimalDigit

/-!
# Cleaned lines

A line as it is typed becomes a line that can be cut into tokens, in four steps: the
multiplication and division glyphs and the power sign are spelled out; what the line ends with but
has not finished (operators, points, blanks) is dropped; a percentage becomes a division by one
hundred in parentheses; and a line with any other character than those of an expression is
refused.

The percent sign thus has two meanings. Directly behind a number it is a percentage; anywhere else
it stays, as the remainder.
-/

namespace DeskCalculator

/-! ## Glyphs -/

/-- The spelling of a character: the glyphs as their operators, the power sign as two stars. -/
def spell : Char → List Char
  | '×' => ['*']
  | '÷' => ['/']
  | '^' => ['*', '*']
  | c => [c]

/-- A line with its glyphs spelled out. -/
def spellOut (s : List Char) : List Char := s.flatMap spell

/-! ## The end of a line -/

/-- What a line may end with and not be finished: the operator signs, a point and blanks. -/
def isUnfinished (c : Char) : Bool := "+-*/.%".toList.contains c || isBlank c

/-! ## Percentages -/

/-- The number of a percentage at the head of a line, and the rest of the line: digits, perhaps a
point and more digits, then a percent sign. -/
def percentage? (s : List Char) : Option (List Char × List Char) :=
  let whole := s.takeWhile isDecimalDigit
  match s.dropWhile isDecimalDigit with
  | '%' :: rest => some (whole, rest)
  | '.' :: rest =>
    let fraction := rest.takeWhile isDecimalDigit
    match rest.dropWhile isDecimalDigit with
    | '%' :: rest => if fraction.isEmpty then none else some (whole ++ '.' :: fraction, rest)
    | _ => none
  | _ => none

/-- A percentage takes at least one character of the line. -/
theorem length_percentage?_lt {s : List Char} {n : List Char × List Char}
    (h : percentage? s = some n) : n.2.length < s.length := by
  have hs := length_dropWhile_le isDecimalDigit s
  simp only [percentage?] at h
  split at h
  · next rest heq =>
    cases h
    rw [heq] at hs
    exact hs
  · next rest heq =>
    have hr := length_dropWhile_le isDecimalDigit rest
    rw [heq] at hs
    split at h
    · next rest' heq' =>
      rw [heq'] at hr
      split at h
      · cases h
      · cases h
        simp only [List.length_cons] at *
        omega
    · cases h
  · cases h

/-- A line with each percentage as a division by one hundred. Where digits begin no percentage,
the search goes on behind them. -/
def expandPercentages (s : List Char) : List Char :=
  match s with
  | [] => []
  | c :: rest =>
    if isDecimalDigit c then
      match _ : percentage? (c :: rest) with
      | some n =>
        '(' :: n.1 ++ "/100)".toList ++ expandPercentages n.2
      | none =>
        c :: rest.takeWhile isDecimalDigit ++ expandPercentages (rest.dropWhile isDecimalDigit)
    else c :: expandPercentages rest
termination_by s.length
decreasing_by
  · exact length_percentage?_lt (by assumption)
  · exact Nat.lt_succ_of_le (length_dropWhile_le _ rest)
  · exact Nat.lt_succ_self _

/-! ## Cleaning -/

/-- The characters of a cleaned line: digits, operator signs, parentheses, the point, the variable
and blanks. -/
def isCleanChar (c : Char) : Bool :=
  c.isDigit || "+-*/().%xX".toList.contains c || isBlank c

/-- The cleaned form of a line. A refusal quotes the line as it was typed. -/
def clean (line : List Char) : Except Fault (List Char) :=
  let s := expandPercentages (dropEndWhile isUnfinished (spellOut line))
  if s.isEmpty then .error .nothingToEvaluate
  else if s.all isCleanChar then .ok s
  else .error (.strayCharacter line)

end DeskCalculator
