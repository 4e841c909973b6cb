import DeskCalculator.Display.Marker
import DeskCalculator.Text.Ends

/-!
# The line being typed

How the line on the display changes with each key. A line is never empty: at rest it is a zero.
Digits, parentheses and the variable replace a line at rest, and so does a minus sign; other
operators are typed behind the zero. An operator replaces the operators before it, a number has
one point, and a closing parenthesis is taken only where it closes something.
-/

namespace DeskCalculator

namespace Buffer

/-- The operator keys. -/
def isOperatorKey (c : Char) : Bool := "+-*/%".toList.contains c

/-- The line at rest. -/
def cleared : List Char := ['0']

/-- Whether there is nothing on the line yet: it is empty, a zero or a marker. -/
def isAtRest (s : List Char) : Bool := s.isEmpty || s == cleared || isMarker s

/-- What has been typed since the last operator. -/
def currentNumber (s : List Char) : List Char :=
  (s.reverse.takeWhile fun c ↦ !isOperatorKey c).reverse

/-- Whether the line ends with a character of this class. -/
def endsWith (s : List Char) (p : Char → Bool) : Bool := s.getLast?.any p

/-- Whether a closing parenthesis would close something: one is open, and it is not empty and does
not end with an operator. -/
def isClosable (s : List Char) : Bool :=
  !isAtRest s && s.count ')' < s.count '('
    && !endsWith s fun c ↦ c == '(' || isOperatorKey c

/-- The line after an operator key. -/
def appendOperator (s : List Char) (c : Char) : List Char :=
  if isAtRest s then
    if c == '-' then ['-'] else ['0', c]
  else match dropEndWhile isOperatorKey s with
    | [] => if c == '-' then ['-'] else cleared
    | base => base ++ [c]

/-- The line after a key; a character without a key changes nothing. -/
def append (s : List Char) (c : Char) : List Char :=
  if c.isDigit then if isAtRest s then [c] else s ++ [c]
  else if isOperatorKey c then appendOperator s c
  else match c with
    | '.' =>
      if isAtRest s then ['0', '.']
      else if (currentNumber s).contains '.' then s
      else s ++ ['.']
    | '(' =>
      if isAtRest s then ['(']
      else if endsWith s fun d ↦ d.isDigit || d == ')' then s ++ ['*', '(']
      else s ++ ['(']
    | ')' => if isClosable s then s ++ [')'] else s
    | 'x' | 'X' => if isAtRest s then ['x'] else s ++ ['x']
    | '=' | '^' => if isMarker s then ['0', c] else s ++ [c]
    | _ => s

/-- The line after the backspace key. A line of one character, a marker, and what would leave a
lone minus sign go back to rest. -/
def backspace (s : List Char) : List Char :=
  if isMarker s || s.length ≤ 1 then cleared
  else if s.dropLast == ['-'] then cleared
  else s.dropLast

end Buffer

end DeskCalculator
