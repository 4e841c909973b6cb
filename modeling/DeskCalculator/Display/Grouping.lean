import DeskCalculator.Text.DecimalDigit
import DeskCalculator.Text.Ends

/-!
# Thousands separators

A comma before every third digit of a whole part, counted from its end. `group` separates one
number; `groupNumbers` separates every number of a line and leaves the rest of the line as it is.
-/

namespace DeskCalculator

/-- Digits with their separators: a comma follows each digit that has a positive multiple of three
digits behind it. -/
def groupDigits : List Char → List Char
  | [] => []
  | c :: s =>
    if s.length % 3 == 0 && !s.isEmpty then c :: ',' :: groupDigits s else c :: groupDigits s

/-- The separators of a number without a sign. -/
def groupUnsigned (s : List Char) : List Char :=
  groupDigits (s.takeWhile (· != '.')) ++ s.dropWhile (· != '.')

/-- Whether a line without its sign is a number to separate: it is not empty, has no letter of an
exponent, and nothing but the digits `0` to `9` before its first point. -/
def isGroupable (s : List Char) : Bool :=
  !s.isEmpty && !s.contains 'e' && !s.contains 'E' && (s.takeWhile (· != '.')).all Char.isDigit

/-- A number with thousands separators in its whole part; anything else is left alone. -/
def group (s : List Char) : List Char :=
  match s with
  | '-' :: rest => if isGroupable rest then '-' :: groupUnsigned rest else s
  | _ => if isGroupable s then groupUnsigned s else s

/-- The number at the head of a line and the rest of the line: digits of any script, and a point
with the digits behind it if there are some. -/
def leadingNumber (s : List Char) : List Char × List Char :=
  let whole := s.takeWhile isDecimalDigit
  match s.dropWhile isDecimalDigit with
  | '.' :: rest =>
    if (rest.takeWhile isDecimalDigit).isEmpty then (whole, '.' :: rest)
    else (whole ++ '.' :: rest.takeWhile isDecimalDigit, rest.dropWhile isDecimalDigit)
  | rest => (whole, rest)

/-- A digit at the head of a line belongs to the number there. -/
theorem length_leadingNumber_lt {c : Char} (s : List Char) (h : isDecimalDigit c = true) :
    (leadingNumber (c :: s)).2.length < (c :: s).length := by
  have hs := length_dropWhile_le isDecimalDigit s
  simp only [leadingNumber, List.dropWhile_cons, h, if_true]
  split
  · next rest heq =>
    have hr := length_dropWhile_le isDecimalDigit rest
    rw [heq] at hs
    split <;> simp only [List.length_cons] at * <;> omega
  · simp only [List.length_cons]
    omega

/-- A line with thousands separators in each of its numbers. -/
def groupNumbers (s : List Char) : List Char :=
  match s with
  | [] => []
  | c :: rest =>
    if _ : isDecimalDigit c = true then
      group (leadingNumber (c :: rest)).1 ++ groupNumbers (leadingNumber (c :: rest)).2
    else c :: groupNumbers rest
termination_by s.length
decreasing_by
  · exact length_leadingNumber_lt rest (by assumption)
  · exact Nat.lt_succ_self _

/-- The line on the display: the numbers separated, and a zero if there is nothing to show. -/
def displayedLine (s : List Char) : List Char :=
  if s.isEmpty then ['0'] else groupNumbers s

end DeskCalculator
