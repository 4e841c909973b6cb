import DeskCalculator.Equation.Solution
import DeskCalculator.Formula.Value

/-!
# Solved equations

An equation is a line with one equals sign and the variable on at least one side. It is solved
through the model of its samples at 0, 1 and 2. A fourth sample, at 3, is a witness: when it is
missing or far from what the model predicts, the equation is no polynomial of the degree assumed
and the solution is doubtful. The witness adds a warning and changes nothing else.
-/

namespace DeskCalculator

/-- The two sides of an equation, as they are typed. -/
structure Equation where
  left : List Char
  right : List Char
  deriving DecidableEq, Repr

namespace Equation

/-- The equation of a line. -/
def ofLine (line : List Char) : Except Fault Equation :=
  match line.dropWhile (· != '=') with
  | [] => .error (.notEquation .noEquals)
  | _ :: rest =>
    let left := trim (line.takeWhile (· != '='))
    let right := trim rest
    if rest.contains '=' then .error (.notEquation .severalEquals)
    else if left.isEmpty || right.isEmpty then .error (.notEquation .emptySide)
    else if mentionsVariable left || mentionsVariable right then .ok ⟨left, right⟩
    else .error (.notEquation .noVariable)

/-- The difference of the two sides at `x`, if it is finite. -/
def difference (e : Equation) (x : Float) : Except Fault Float := do
  let l ← evaluateAt e.left x
  let r ← evaluateAt e.right x
  finite (l - r)

end Equation

/-- The part of an observed magnitude by which a prediction may be off. -/
def witnessTolerance : Float := 1e-6

/-- Whether the sample at 3 speaks against a model: it is far from the prediction, or there is
none. -/
def Model.isContradictedBy (m : Model Float) : Except Fault Float → Bool
  | .ok observed => isFar witnessTolerance observed m.atThree
  | .error _ => true

/-- An equation with its samples, its model and the model's solution. -/
structure SolvedEquation where
  equation : Equation
  /-- The sample at 0. -/
  f0 : Float
  /-- The sample at 1. -/
  f1 : Float
  /-- The sample at 2. -/
  f2 : Float
  model : Model Float
  solution : Solution
  /-- The witness contradicts the model. -/
  isDoubtful : Bool

/-- Solves an equation. Fails if a sample or a real root is not a finite number. -/
def Equation.solve (e : Equation) : Except Fault SolvedEquation := do
  let f0 ← e.difference 0.0
  let f1 ← e.difference 1.0
  let f2 ← e.difference 2.0
  let model := Model.fit negligible f0 f1 f2
  let solution ← model.solve
  return ⟨e, f0, f1, f2, model, solution, model.isContradictedBy (e.difference 3.0)⟩

/-- Solves the equation of a line. -/
def solveLine (line : List Char) : Except Fault SolvedEquation := do
  (← Equation.ofLine line).solve

namespace SolvedEquation

variable (s : SolvedEquation)

/-! ## The way to the solution -/

/-- A number in a line of the way. -/
def shown (x : Float) : String := String.ofList (Double.resultText x)

/-- The line that brings both sides to one. -/
def bringTogether : String :=
  "Tout ramener d’un côté : (" ++ String.ofList s.equation.left ++ ") - ("
    ++ String.ofList s.equation.right ++ ") = 0"

/-- The last line for a doubtful solution. -/
def doubtLine : String :=
  "Attention : f(3) contredit le modèle (degré > 2 ou non polynomial), résultat possiblement faux."

/-- The lines up to the model. -/
def modelLines : List String :=
  match s.model with
  | .quadratic a b c =>
    ["Équation du second degré :", s.bringTogether,
      "f(0) = " ++ shown s.f0 ++ ", f(1) = " ++ shown s.f1 ++ ", f(2) = " ++ shown s.f2,
      "Coefficients (échantillonnage) : a = " ++ shown a ++ ", b = " ++ shown b
        ++ ", c = " ++ shown c,
      "Discriminant : D = b^2 - 4ac = " ++ shown (Model.discriminant a b c)]
  | .linear a b =>
    match s.solution with
    | .unique _ =>
      ["Équation du premier degré :", s.bringTogether,
        "f(0) = " ++ shown s.f0 ++ " (constante b), f(1) = " ++ shown s.f1 ++ " (a + b)",
        "Donc a = f(1) - f(0) = " ++ shown a ++ ", b = f(0) = " ++ shown b]
    | _ => []

/-- The lines from the model to its solution. -/
def solutionLines : List String :=
  match s.solution with
  | .unique x => ["Solution : x = -b/a = " ++ shown x]
  | .real x y =>
    ["Racines : x1 = (-b + √D) / (2a) = " ++ shown x ++ ", x2 = (-b - √D) / (2a) = " ++ shown y]
  | .conjugate re im =>
    ["D < 0 : racines complexes conjuguées.",
      "Racines : " ++ Solution.conjugateText re im ++ " , " ++ Solution.conjugateText re (-im)]
  | .none => ["Équation contradictoire : aucune solution."]
  | .every => ["Équation équivalente à 0 = 0 : une infinité de solutions (tout x)."]

/-- The way to the solution, line by line. -/
def steps : List String :=
  s.modelLines ++ s.solutionLines ++ if s.isDoubtful then [doubtLine] else []

/-! ## The result -/

/-- The warning that goes with a doubtful solution. -/
def warning : Option String :=
  if s.isDoubtful then
    some ("f(3) contredit le modèle de degré " ++ toString s.model.degree
      ++ " : résultat possiblement faux")
  else none

/-- The equation and its solution in one line. -/
def text : String :=
  String.ofList (displayedLine s.equation.left) ++ " = "
    ++ String.ofList (displayedLine s.equation.right) ++ " => " ++ s.solution.text

end SolvedEquation

end DeskCalculator
