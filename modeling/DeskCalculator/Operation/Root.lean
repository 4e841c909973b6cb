import DeskCalculator.Fault
import DeskCalculator.Text.Blank

/-!
# Roots

Real roots. A root of even degree of a negative number is refused, one of odd degree keeps the
sign. The degree is asked for at a prompt and must be a positive whole number of at most 32 bits.
-/

namespace DeskCalculator

/-- The square root. -/
def squareRoot (v : Float) : Except Fault Float :=
  if v < 0.0 then .error (.outOfDomain (.squareRoot v)) else finite v.sqrt

/-- The root of degree `n`: the power of the magnitude to `1/n`, with the sign of the number. -/
def nthRoot (v : Float) (n : Nat) : Except Fault Float :=
  if n = 0 then .error (.notNumeric ['0'])
  else if n % 2 = 0 && v < 0.0 then .error (.outOfDomain (.evenRoot n v))
  else
    let r := Float.pow v.abs (1.0 / Float.ofNat n)
    finite (if v < 0.0 then -r else r)

/-- The answer to the prompt for a degree, blanks around it aside. Zeros in front are allowed. -/
def readDegree (answer : List Char) : Except Fault Nat :=
  let s := trim answer
  let n := Nat.ofDigitChars 10 s 0
  if !s.isEmpty && s.all Char.isDigit && 0 < n && n < Nat.pow 2 32 then .ok n
  else .error (.notNumeric s)

end DeskCalculator
