import DeskCalculator.Number.Double

/-!
# What can go wrong

Every refusal of the calculator, by its cause, with the wording of each in one place. A fault of a
prompt's answer, and a trigonometric function of an expression in `x`, leave the display as it is;
all others replace it.
-/

namespace DeskCalculator

/-- Why a line is not an arithmetic expression. -/
inductive Malformed where
  /-- The variable has no value. -/
  | unknownVariable
  /-- A point without digits. -/
  | lonePoint
  /-- The text of a number that is none. -/
  | invalidNumber (text : List Char)
  /-- A character that begins nothing. -/
  | unexpected (c : Char)
  /-- Two values side by side. -/
  | missingOperator
  /-- A value, then an opening parenthesis. -/
  | missingOperatorBeforeOpen
  /-- An operator where a value is due. -/
  | missingOperand
  /-- A closing parenthesis where a value is due. -/
  | missingOperandBeforeClose
  /-- A closing parenthesis that closes nothing. -/
  | unmatchedClose
  /-- A parenthesis left open. -/
  | unclosedOpen
  /-- The line ends where a value is due. -/
  | incomplete
  /-- A negation with nothing before it, in a postfix listing. -/
  | negatesNothing
  /-- A postfix listing that is not the listing of one expression. -/
  | notOneExpression
  /-- A parenthesis in a postfix listing. -/
  | parenthesisInListing
  /-- A line that does not begin with a number. -/
  | noLeadingNumber (line : List Char)
  deriving DecidableEq, Repr

/-- The wording of the cause. -/
def Malformed.message : Malformed → String
  | unknownVariable => "variable x non substituée"
  | lonePoint => "point isolé"
  | invalidNumber text => "nombre invalide: '" ++ String.ofList text ++ "'"
  | unexpected c => "caractère inattendu: '" ++ c.toString ++ "'"
  | missingOperator => "opérateur manquant"
  | missingOperatorBeforeOpen => "opérateur manquant avant '('"
  | missingOperand => "opérande manquant"
  | missingOperandBeforeClose => "opérande manquant avant ')'"
  | unmatchedClose => "parenthèse fermante sans ouvrante"
  | unclosedOpen => "parenthèses non fermées"
  | incomplete => "expression incomplète"
  | negatesNothing => "négation sans argument"
  | notOneExpression => "expression invalide"
  | parenthesisInListing => "jeton inattendu en RPN"
  | noLeadingNumber line => String.ofList line

/-- Why a function has no value at its argument. -/
inductive OutOfDomain where
  /-- The square root of a negative number. -/
  | squareRoot (v : Float)
  /-- A root of even degree of a negative number. -/
  | evenRoot (degree : Nat) (v : Float)
  /-- The tangent at an odd multiple of ninety degrees. -/
  | tangent (degrees : Float)

/-- The wording of the cause. -/
def OutOfDomain.message : OutOfDomain → String
  | squareRoot v => "√(" ++ String.ofList (Double.text v) ++ ") : radicande négatif"
  | evenRoot n v =>
    toString n ++ "√(" ++ String.ofList (Double.text v) ++ ") : racine paire d’un négatif"
  | tangent d => "tan(" ++ String.ofList (Double.text d) ++ "°) indéfinie"

/-- Why a line is not an equation in `x`. -/
inductive NotEquation where
  /-- There is no equals sign. -/
  | noEquals
  /-- There are several equals signs. -/
  | severalEquals
  /-- A side is empty. -/
  | emptySide
  /-- Neither side has the variable. -/
  | noVariable
  deriving DecidableEq, Repr

/-- The wording of the cause. -/
def NotEquation.message : NotEquation → String
  | noEquals => "aucun signe ="
  | severalEquals => "plus d’un signe ="
  | emptySide => "côté vide"
  | noVariable => "pas de variable x"

/-- A refusal. -/
inductive Fault where
  /-- A line has a character that no expression has. -/
  | strayCharacter (line : List Char)
  /-- A line has nothing to evaluate. -/
  | nothingToEvaluate
  /-- A line is not an expression. -/
  | malformed (cause : Malformed)
  /-- A value is infinite or undefined. -/
  | notFinite
  /-- A function has no value at its argument. -/
  | outOfDomain (cause : OutOfDomain)
  /-- A line is not an equation in `x`. -/
  | notEquation (cause : NotEquation)
  /-- The answer to a prompt is not the number that was asked for. -/
  | notNumeric (answer : List Char)
  /-- A trigonometric function of an expression in `x`. -/
  | variableNotAllowed

namespace Fault

/-- The wording of the refusal. -/
def message : Fault → String
  | strayCharacter line => "caractère non autorisé dans « " ++ String.ofList line ++ " »"
  | nothingToEvaluate => "entrée vide"
  | malformed cause => "expression invalide : " ++ cause.message
  | notFinite => "résultat non fini"
  | outOfDomain cause => "hors domaine : " ++ cause.message
  | notEquation cause => "équation non reconnue : " ++ cause.message
  | notNumeric answer => "saisie non numérique : « " ++ String.ofList answer ++ " »"
  | variableNotAllowed => "fonction trigonométrique impossible sur une expression en x"

/-- The refusals that leave the display as it is and are only noted under it. -/
def keepsDisplay : Fault → Bool
  | notNumeric _ | variableNotAllowed => true
  | _ => false

end Fault

/-- A value that is neither infinite nor undefined. -/
def finite (v : Float) : Except Fault Float :=
  if v.isFinite then .ok v else .error .notFinite

end DeskCalculator
