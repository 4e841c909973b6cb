import DeskCalculator.Display.Grouping
import DeskCalculator.Display.Marker
import DeskCalculator.Display.Result
import DeskCalculator.Equation.Model
import DeskCalculator.Fault

/-!
# Solutions of a model

What a model in double precision is solved by. A model of the second degree has two real roots,
maybe equal, or two conjugate complex ones; a model of the first degree has one root, unless its
slope is negligible: then every number solves it or none does.

Real roots must be finite. Conjugate roots are taken as the formulas give them.
-/

namespace DeskCalculator

/-- The numbers that solve an equation. -/
inductive Solution where
  | unique (x : Float)
  | real (x y : Float)
  /-- The conjugate pair with this real part and this imaginary part and its negative. -/
  | conjugate (re im : Float)
  | none
  | every
  deriving DecidableEq

/-- The magnitude below which a coefficient is negligible. -/
def negligible : Float := 1e-9

namespace Model

/-- The solution of a model. -/
def solve : Model Float → Except Fault Solution
  | quadratic a b c =>
    let d := discriminant a b c
    if 0.0 ≤ d then
      let x := upperRoot a b d.sqrt
      let y := lowerRoot a b d.sqrt
      if x.isFinite && y.isFinite then .ok (.real x y) else .error .notFinite
    else .ok (.conjugate (realPart a b) (imaginaryPart a (-d).sqrt))
  | linear a b =>
    if a.abs < negligible then .ok (if b.abs < negligible then .every else .none)
    else .unique <$> finite (linearRoot a b)

end Model

namespace Solution

/-- A real root in a line of text, with thousands separators. -/
def rootText (x : Float) : String := String.ofList (group (Double.resultText x))

/-- A complex root in a line of text. -/
def conjugateText (re im : Float) : String := String.ofList (complexText re im)

/-- The solution in words. -/
def text : Solution → String
  | unique x => "x = " ++ rootText x
  | real x y => "x = " ++ rootText x ++ ", " ++ rootText y
  | conjugate re im => "x = " ++ conjugateText re im ++ ", " ++ conjugateText re (-im)
  | none => String.ofList Marker.noSolution.word
  | every => "∀x (infinitely many solutions)"

/-- What the display shows for the solution: its first root, of a complex one the real part, or a
marker. -/
def display : Solution → List Char
  | unique x => Double.resultText x
  | real x _ => Double.resultText x
  | conjugate re _ => Double.resultText re
  | none => Marker.noSolution.word
  | every => Marker.infinite.word

end Solution

end DeskCalculator
