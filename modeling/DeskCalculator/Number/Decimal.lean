import DeskCalculator.Number.Binary
import DeskCalculator.Text.Ends

/-!
# Decimal writing of binary magnitudes

A grain is a power of one half, so every magnitude has a finite decimal expansion, of as many
places as the grain has halvings. `exact` is that expansion as a whole number of units of the last
place. The two writings of a number are roundings of it:

* `shortest` keeps the fewest leading digits that still read back as the same magnitude, the
  nearest such number if there are several, and the greater of two equally near;
* `roundHalfEven` at a place counted from the point.

A writing is positional whatever its size: `positional` puts the point, drops the zeros behind the
last place that counts, and writes no exponent.
-/

namespace DeskCalculator

namespace BinaryFormat

variable (f : BinaryFormat)

/-- The magnitude with this code, in units of `10⁻ᵍ`, the grain being `2⁻ᵍ`. -/
def exact (code : Nat) : Nat := f.grains code * Nat.pow 5 f.grain

/-- Whether `n` units of `10⁻ᵍ` read back as this code. -/
def readsAs (code n : Nat) : Bool := f.nearest n (Nat.pow 10 f.grain) == code

/-- The multiple of `unit` that is written for this code: one of the two around the magnitude that
reads back, the nearer if both do, and the upper if they are equally near. -/
def onGrid? (code unit : Nat) : Option Nat :=
  let n := f.exact code
  let low := n / unit * unit
  let high := low + unit
  if f.readsAs code low && (n - low < high - n || !f.readsAs code high) then some low
  else if f.readsAs code high then some high
  else none

/-- The most digits that a magnitude of at most 53 bits needs to read back. -/
def mostDigits : Nat := 17

/-- The decimal number with the fewest digits that reads back as this code, in units of `10⁻ᵍ`. -/
def shortest (code : Nat) : Nat :=
  let n := f.exact code
  let length := (Nat.toDigits 10 n).length
  ((List.range mostDigits).findSome? fun i ↦ f.onGrid? code (Nat.pow 10 (length - 1 - i))).getD n

end BinaryFormat

/-- The digits of `n`, with zeros in front up to the given width. -/
def paddedDigits (width n : Nat) : List Char :=
  let digits := Nat.toDigits 10 n
  List.replicate (width - digits.length) '0' ++ digits

/-- The digits of a fraction of `places` places, without the zeros at its end. -/
def fractionDigits (places n : Nat) : List Char :=
  dropEndWhile (· == '0') (paddedDigits places n)

/-- `n` units of `10⁻ᵖ`, where `p` is the number of places, written with a point if the number is
not whole. -/
def positional (places n : Nat) : List Char :=
  let whole := Nat.toDigits 10 (n / Nat.pow 10 places)
  match fractionDigits places (n % Nat.pow 10 places) with
  | [] => whole
  | fraction => whole ++ '.' :: fraction

end DeskCalculator
