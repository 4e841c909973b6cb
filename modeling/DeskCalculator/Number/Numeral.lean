import DeskCalculator.Number.Double

/-!
# Numerals

A number as it is written: a sign, digits around a point, an exponent. A numeral is kept as the
digits it was written with, because which characters count as digits depends on who reads:
`Numeral.leading?` takes the class of digits as an argument.

The value of a numeral is the double nearest to it, whatever the size of its exponent.
-/

namespace DeskCalculator

/-- A written number, by its digits. -/
structure Numeral where
  /-- A minus sign stands in front. -/
  isNegative : Bool := false
  /-- The digits before the point. -/
  whole : List Char
  /-- The digits behind the point. -/
  fraction : List Char := []
  /-- The exponent has a minus sign. -/
  isScaledDown : Bool := false
  /-- The digits of the exponent; none means no exponent. -/
  exponent : List Char := []
  deriving DecidableEq, Repr

namespace Numeral

/-! ## Reading -/

/-- A sign at the head of a line, and the rest of the line. -/
def sign : List Char → Bool × List Char
  | '-' :: s => (true, s)
  | '+' :: s => (false, s)
  | s => (false, s)

/-- The digits at the head of a line, and behind them a point with the digits that follow it. -/
def unsigned (isDigit : Char → Bool) (s : List Char) : Numeral × List Char :=
  let whole := s.takeWhile isDigit
  match s.dropWhile isDigit with
  | '.' :: rest => ({ whole, fraction := rest.takeWhile isDigit }, rest.dropWhile isDigit)
  | rest => ({ whole }, rest)

/-- The exponent at the head of a line: its sign, its digits and the rest of the line. A letter
without digits behind it is no exponent. -/
def exponentPart (isDigit : Char → Bool) : List Char → Bool × List Char × List Char
  | [] => (false, [], [])
  | c :: s =>
    let signed := sign s
    let digits := signed.2.takeWhile isDigit
    if (c == 'e' || c == 'E') && !digits.isEmpty then
      (signed.1, digits, signed.2.dropWhile isDigit)
    else (false, [], c :: s)

/-- The longest numeral at the head of a line, and the rest of the line: a sign or none, at least
one digit with at most one point, an exponent or none. -/
def leading? (isDigit : Char → Bool) (s : List Char) : Option (Numeral × List Char) :=
  let signed := sign s
  let n := unsigned isDigit signed.2
  let e := exponentPart isDigit n.2
  if n.1.whole.isEmpty && n.1.fraction.isEmpty then none
  else some
    ({ n.1 with isNegative := signed.1, isScaledDown := e.1, exponent := e.2.1 }, e.2.2)

/-! ## The value -/

/-- All digits are the digits `0` to `9`. -/
def isPlain (n : Numeral) : Bool :=
  n.whole.all Char.isDigit && n.fraction.all Char.isDigit && n.exponent.all Char.isDigit

/-- The digits without the point, as a natural number. -/
def significand (n : Numeral) : Nat := Nat.ofDigitChars 10 (n.whole ++ n.fraction) 0

/-- The power of ten that the significand is multiplied by. -/
def power (n : Numeral) : Int :=
  let e : Int := Nat.ofDigitChars 10 n.exponent 0
  (if n.isScaledDown then -e else e) - n.fraction.length

/-- The code of the magnitude nearest to the numeral, its sign aside.

A power of ten beyond the largest magnitude or below half a grain decides the answer alone, so the
powers that are computed stay within the range of the format. -/
def code (f : BinaryFormat) (n : Numeral) : Nat :=
  let digits := n.whole.length + n.fraction.length
  if n.significand = 0 then 0
  else if Nat.pow 2 (f.exponent - 1) ≤ n.power then f.infinity
  else if n.power < -(digits + f.grain) then 0
  else if 0 ≤ n.power then f.nearest (n.significand * Nat.pow 10 n.power.toNat) 1
  else f.nearest n.significand (Nat.pow 10 (-n.power).toNat)

/-- The double nearest to the numeral; infinite if the numeral is too large. -/
def value (n : Numeral) : Float := Double.ofCode n.isNegative (n.code .double)

end Numeral

end DeskCalculator
