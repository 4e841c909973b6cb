import DeskCalculator.Formula.Cleaned
import DeskCalculator.Formula.Postfix
import DeskCalculator.Formula.Substitution

/-!
# Values of lines

From a typed line to a finite number: the line is cleaned, cut into tokens, listed, built into a
tree, and the value of the tree must be finite. With a value for the variable the line is
substituted first.

`currentValue` is the reading of the display for the functions of one argument. They take the
number that a line begins with when the line as a whole is not an expression, as `-3=` is not.
-/

namespace DeskCalculator

/-- The tree of a cleaned line. -/
def parse (s : List Char) : Except Malformed Tree := do
  let tokens ← Token.scan s
  let items ← Postfix.ofTokens tokens
  Tree.ofPostfix items

/-- The value of a cleaned line. -/
def evaluate (s : List Char) : Except Fault Float :=
  match parse s with
  | .error cause => .error (.malformed cause)
  | .ok t => finite t.value

/-- The value of a typed line. -/
def evaluateLine (line : List Char) : Except Fault Float := do
  evaluate (← clean line)

/-- The value of a typed line where the variable has the value `v`. -/
def evaluateAt (line : List Char) (v : Float) : Except Fault Float :=
  if v.isFinite then evaluateLine (substitute line (Double.text v))
  else .error (.notNumeric (Double.text v))

/-- Whether a line mentions the variable. -/
def mentionsVariable (line : List Char) : Bool := line.any isVariable

/-- The answer to a prompt, as a number: a sign or none, digits, and digits behind a point if
there is one. Blanks around it do not count. -/
def readAnswer (answer : List Char) : Except Fault Float :=
  let s := trim answer
  let signed := Numeral.sign s
  let n := Numeral.unsigned Char.isDigit signed.2
  if n.1.whole.isEmpty || (signed.2.contains '.' && n.1.fraction.isEmpty) || !n.2.isEmpty then
    .error (.notNumeric s)
  else .ok { n.1 with isNegative := signed.1 }.value

/-- The number that a line begins with. Digits of all scripts belong to the number, but only the
digits `0` to `9` have a value. -/
def leadingValue (line : List Char) : Except Fault Float :=
  match Numeral.leading? isDecimalDigit (line.dropWhile isBlank) with
  | some (n, _) => if n.isPlain then finite n.value else .error (.malformed (.noLeadingNumber line))
  | none => .error (.malformed (.noLeadingNumber line))

/-- The number on the display: the value of the line if it can be cleaned, or else the number that
it begins with. -/
def currentValue (line : List Char) : Except Fault Float :=
  match clean line with
  | .ok s => evaluate s
  | .error _ => leadingValue line

end DeskCalculator
