import DeskCalculator.Number.Decimal

/-!
# Double-precision numbers

A double is a sign and the code of a magnitude. This module takes a double apart, puts one
together, writes it, and computes the remainder of two.

The writing of a double is the shortest decimal that reads back as the same double, without an
exponent; a whole number has no point, a zero keeps its sign.
-/

namespace DeskCalculator

namespace Double

/-- The sign bit; that of a negative zero is set too. -/
def isNegative (x : Float) : Bool := Nat.pow 2 63 ≤ x.toBits.toNat

/-- The code of the magnitude. -/
def code (x : Float) : Nat := x.toBits.toNat % Nat.pow 2 63

/-- The double with this sign and this code of its magnitude. -/
def ofCode (negative : Bool) (code : Nat) : Float :=
  Float.ofBits (UInt64.ofNat (if negative then Nat.pow 2 63 + code else code))

/-- The grains of the magnitude. -/
def grains (x : Float) : Nat := BinaryFormat.double.grains (code x)

/-- Whether a finite double is a whole number. -/
def isWhole (x : Float) : Bool := grains x % Nat.pow 2 BinaryFormat.double.grain == 0

/-- The minus sign of a negative number. -/
def sign (negative : Bool) : List Char := if negative then ['-'] else []

/-- The digits of a finite magnitude, by its code. -/
def magnitudeText (code : Nat) : List Char :=
  positional BinaryFormat.double.grain (BinaryFormat.double.shortest code)

/-- The writing of a double: its shortest decimal, or the name of what is not finite. -/
def text (x : Float) : List Char :=
  if x.isNaN then ['N', 'a', 'N']
  else if x.isFinite then sign (isNegative x) ++ magnitudeText (code x)
  else sign (isNegative x) ++ ['i', 'n', 'f']

/-- The remainder of the division toward zero: exact, with the sign of the dividend. The dividend
of an infinite divisor is its own remainder; there is none for a zero divisor or an infinite
dividend. -/
def remainder (x y : Float) : Float :=
  if x.isNaN || y.isNaN || x.isInf || grains y == 0 then 0.0 / 0.0
  else if y.isInf then x
  else ofCode (isNegative x)
    (BinaryFormat.double.nearest (grains x % grains y) (Nat.pow 2 BinaryFormat.double.grain))

end Double

end DeskCalculator
