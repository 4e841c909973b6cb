import DeskCalculator.Number.Numeral

/-!
# Results as they are shown

A result is a line that can be typed back: digits, a point if needed, a minus sign if negative,
and never an exponent. A whole number keeps all its digits. Any other number is rounded to ten
decimal places, a half to the even neighbour, and what the rounded number reads as is written in
its shortest form; so zeros at the end go away, and a number that rounds to zero loses its sign.
-/

namespace DeskCalculator

/-- The decimal places that a result keeps. -/
def resultPlaces : Nat := 10

namespace Double

/-- A finite magnitude, by its code, in units of the last place that a result keeps. -/
def roundedMagnitude (code : Nat) : Nat :=
  let dropped := BinaryFormat.double.grain - resultPlaces
  roundHalfEven (BinaryFormat.double.exact code) (Nat.pow 10 dropped)

/-- The code of the magnitude that a result is shown as. -/
def shownCode (x : Float) : Nat :=
  if isWhole x then code x
  else BinaryFormat.double.nearest (roundedMagnitude (code x)) (Nat.pow 10 resultPlaces)

/-- A result as it is shown. Zero has no sign. -/
def resultText (x : Float) : List Char :=
  if x.isNaN then "NaN".toList
  else if x.isFinite then sign (isNegative x && shownCode x != 0) ++ magnitudeText (shownCode x)
  else sign (isNegative x) ++ "Infinity".toList

end Double

/-- The complex number with these two parts as it is shown; without an imaginary part it is shown
as a real number. -/
def complexText (re im : Float) : List Char :=
  if im == 0.0 then Double.resultText re
  else
    let link := if im < 0.0 then " - ".toList else " + ".toList
    Double.resultText re ++ link ++ Double.resultText im.abs ++ ['i']

end DeskCalculator
