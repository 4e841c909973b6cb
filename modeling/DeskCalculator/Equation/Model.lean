/-!
# Models of an equation

An equation in `x` is solved through three samples of the difference `f` of its sides, at 0, 1 and
2. One polynomial of degree at most two passes through them; it is the model whose roots are
reported. If its second difference is negligible the model is taken to be of the first degree.

The formulas are written for any numbers with the operations of `Arithmetic`: double-precision
numbers when the solver runs, exact ones to say what the formulas compute.
-/

namespace DeskCalculator

/-- The operations that the formulas of the solver use. -/
class Arithmetic (α : Type) extends Add α, Sub α, Mul α, Div α, Neg α where
  /-- A whole number. -/
  nat : Nat → α
  /-- The magnitude of a number. -/
  abs : α → α
  /-- Whether one number is less than another. -/
  less : α → α → Bool

instance : Arithmetic Float where
  nat n := Float.ofNat n
  abs := Float.abs
  less x y := x < y

open Arithmetic

/-- A polynomial of the second degree, `a x² + b x + c`, or of the first, `a x + b`. -/
inductive Model (α : Type) where
  | quadratic (a b c : α)
  | linear (a b : α)
  deriving DecidableEq, Repr

namespace Model

variable {α : Type} [Arithmetic α]

/-- The model through three samples; `ε` is what a second difference has to exceed to count. -/
def fit (ε f0 f1 f2 : α) : Model α :=
  let d := f2 - nat 2 * f1 + f0
  if less ε (abs d) then
    let a := d / nat 2
    quadratic a (f1 - f0 - a) f0
  else linear (f1 - f0) f0

/-- What the model predicts at 3. -/
def atThree : Model α → α
  | quadratic a b c => nat 9 * a + nat 3 * b + c
  | linear a b => nat 3 * a + b

/-- Whether an observed value is too far from a prediction: by more than the given part of the
observed magnitude, or of one if that is greater. -/
def isFar (tolerance observed predicted : α) : Bool :=
  let scale := if less (abs observed) (nat 1) then nat 1 else abs observed
  less (tolerance * scale) (abs (observed - predicted))

omit [Arithmetic α] in
/-- The degree of a model. -/
def degree : Model α → Nat
  | quadratic .. => 2
  | linear .. => 1

/-! ## Roots -/

/-- The discriminant of `a x² + b x + c`. -/
def discriminant (a b c : α) : α := b * b - nat 4 * a * c

/-- The root with the positive square root `r` of the discriminant. -/
def upperRoot (a b r : α) : α := (-b + r) / (nat 2 * a)

/-- The root with the negative square root of the discriminant. -/
def lowerRoot (a b r : α) : α := (-b - r) / (nat 2 * a)

/-- The real part of the conjugate roots. -/
def realPart (a b : α) : α := -b / (nat 2 * a)

/-- The imaginary part of the conjugate roots, `r` being the square root of the discriminant's
magnitude. -/
def imaginaryPart (a r : α) : α := r / (nat 2 * abs a)

/-- The root of `a x + b`. -/
def linearRoot (a b : α) : α := -b / a

end Model

end DeskCalculator
