import DeskCalculator.Fault

/-!
# Trigonometric functions of degrees

An angle in degrees becomes radians by one multiplication. The tangent is refused where the cosine
is so small that it is zero but for rounding.
-/

namespace DeskCalculator

/-- The trigonometric functions. -/
inductive TrigFunction where
  | sine
  | cosine
  | tangent
  deriving DecidableEq, Repr

namespace TrigFunction

/-- The name on the button and in the history. -/
def name : TrigFunction → String
  | sine => "sin"
  | cosine => "cos"
  | tangent => "tan"

/-- All functions, in the order of their buttons. -/
def all : List TrigFunction := [sine, cosine, tangent]

/-- The radians of one degree. -/
def radiansPerDegree : Float := 0.017453292519943295

/-- The magnitude below which a cosine is zero but for rounding. -/
def vanishingCosine : Float := 1e-12

/-- The value of the function at an angle in degrees. -/
def apply (f : TrigFunction) (degrees : Float) : Except Fault Float :=
  let angle := degrees * radiansPerDegree
  match f with
  | sine => finite angle.sin
  | cosine => finite angle.cos
  | tangent =>
    if angle.cos.abs < vanishingCosine then .error (.outOfDomain (.tangent degrees))
    else finite angle.tan

end TrigFunction

end DeskCalculator
