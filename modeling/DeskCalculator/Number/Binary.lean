/-!
# Binary number formats

The magnitudes of a binary floating-point format, in exact integer arithmetic.

Every finite magnitude of such a format is a whole number of *grains*, the grain being the least
positive magnitude. Magnitudes are numbered in increasing order by their *codes*: the code of a
magnitude is its bit pattern without the sign, read as a natural number. The codes come in blocks
of one for each value of the fraction field. In the first two blocks a magnitude has as many grains
as its code; from there on each block doubles the step of the block before.

`nearest` rounds a fraction to its code, a half to the even code. Both the carry into the next
block and the passage to infinity fall out of the numbering, so neither is a case of the
definition.
-/

namespace DeskCalculator

/-- The natural number nearest to `p / q`; of two equally near ones, the even. -/
def roundHalfEven (p q : Nat) : Nat :=
  if 2 * (p % q) < q then p / q
  else if q < 2 * (p % q) then p / q + 1
  else p / q + p / q % 2

/-- A binary floating-point format, by the widths of its two fields. -/
structure BinaryFormat where
  /-- Bits of the fraction field. -/
  fraction : Nat
  /-- Bits of the exponent field. -/
  exponent : Nat
  deriving DecidableEq, Repr

namespace BinaryFormat

/-- Double precision. -/
def double : BinaryFormat := ⟨52, 11⟩

/-- Single precision. -/
def single : BinaryFormat := ⟨23, 8⟩

variable (f : BinaryFormat)

/-- A grain is `2⁻ᵍ` for this `g`. -/
def grain : Nat := Nat.pow 2 (f.exponent - 1) - 2 + f.fraction

/-- The code of infinity; finite magnitudes have the codes below it. -/
def infinity : Nat := (Nat.pow 2 f.exponent - 1) * Nat.pow 2 f.fraction

/-- The grains of the magnitude with this code. -/
def grains (code : Nat) : Nat :=
  let block := Nat.pow 2 f.fraction
  if code / block = 0 then code
  else (code % block + block) * Nat.pow 2 (code / block - 1)

/-- The doublings of the step between the magnitudes around one of `n` whole grains. -/
def doublings (n : Nat) : Nat := n.log2 - f.fraction

/-- The code of the magnitude nearest to `p / q`; halfway between two codes, the even one. -/
def nearest (p q : Nat) : Nat :=
  let n := p * Nat.pow 2 f.grain
  let k := f.doublings (n / q)
  min f.infinity (k * Nat.pow 2 f.fraction + roundHalfEven n (q * Nat.pow 2 k))

end BinaryFormat

end DeskCalculator
