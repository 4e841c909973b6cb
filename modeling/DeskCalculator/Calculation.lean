import DeskCalculator.Equation.Solved
import DeskCalculator.History
import DeskCalculator.Operation.Root
import DeskCalculator.Operation.Trigonometry

/-!
# Calculations

What the calculator does with the line on its display. Every calculation answers with the next
line and an entry for the history, or is refused. Numbers have thousands separators in the history
and none on the line, which can be typed on.
-/

namespace DeskCalculator

/-- The result of a calculation. -/
structure Outcome where
  /-- The next line on the display. -/
  display : List Char
  /-- The entry for the history. -/
  entry : Entry
  deriving DecidableEq, Repr

/-- The outcome whose result is a number. -/
def Outcome.number (calculation : String) (v : Float) : Outcome where
  display := Double.resultText v
  entry := { calculation := calculation ++ " = " ++ String.ofList (group (Double.resultText v)) }

/-- The line as it appears in the history. -/
def recorded (line : List Char) : String := String.ofList (displayedLine line)

/-- What the key `=` does with a line. -/
inductive Kind where
  /-- The line has an equals sign: it is solved. -/
  | equation
  /-- The line mentions the variable: its value is asked for. -/
  | withVariable
  /-- The line is evaluated. -/
  | plain
  deriving DecidableEq, Repr

/-- The kind of a line. -/
def Kind.ofLine (line : List Char) : Kind :=
  if line.contains '=' then .equation
  else if mentionsVariable line then .withVariable
  else .plain

namespace Calculation

/-- The value of a line. -/
def plain (line : List Char) : Except Fault Outcome := do
  let v ← evaluateLine line
  return .number (recorded line) v

/-- The value of a line where the variable has the value answered to the prompt. -/
def withVariable (line answer : List Char) : Except Fault Outcome := do
  let x ← readAnswer answer
  let v ← evaluateAt line x
  return .number (recorded line ++ " with x=" ++ String.ofList (trim answer)) v

/-- The solution of an equation. -/
def equation (line : List Char) : Except Fault Outcome := do
  let s ← solveLine line
  return ⟨s.solution.display, ⟨s.text, s.steps, s.warning⟩⟩

/-- The square root of the number on the display. -/
def squareRoot (line : List Char) : Except Fault Outcome := do
  let v ← currentValue line
  let r ← DeskCalculator.squareRoot v
  return .number ("√(" ++ recorded line ++ ")") r

/-- The root of the number on the display whose degree is answered to the prompt. The degree is
read before the display. -/
def nthRoot (line answer : List Char) : Except Fault Outcome := do
  let n ← readDegree answer
  let v ← currentValue line
  let r ← DeskCalculator.nthRoot v n
  return .number (toString n ++ "√(" ++ recorded line ++ ")") r

/-- A trigonometric function of the number on the display, in degrees. -/
def trigonometric (line : List Char) (f : TrigFunction) : Except Fault Outcome := do
  if mentionsVariable line then .error .variableNotAllowed
  else
    let v ← currentValue line
    let r ← f.apply v
    return .number (f.name ++ "(" ++ recorded line ++ ")") r

end Calculation

/-- The preview of a line: an equals sign and its value, or nothing if it has none yet. A lone
zero and a line with the variable have no preview. -/
def preview (line : List Char) : List Char :=
  if mentionsVariable line then []
  else match clean line with
    | .error _ => []
    | .ok s =>
      if s == ['0'] then []
      else match evaluate s with
        | .error _ => []
        | .ok v => '=' :: ' ' :: group (Double.resultText v)

end DeskCalculator
