import DeskCalculator.Calculation
import DeskCalculator.Keypad.Buffer
import DeskCalculator.Preferences.Basic

/-!
# Sessions

The state of a running calculator and the actions on it.

All results come back through `Session.record`: an outcome becomes the line and an entry; a fault
that keeps the display is noted under it; any other fault puts the error marker on the line. A
fault never touches the history.

An open prompt holds back every action but its own and those on the preferences. The request to
clear the history is confirmed separately and holds nothing back.
-/

namespace DeskCalculator

/-- What a prompt asks for. -/
inductive Question where
  /-- The value of the variable. -/
  | valueOfX
  /-- The degree of a root. -/
  | degree
  deriving DecidableEq, Repr

/-- The words of a prompt. -/
def Question.text : Question → String
  | valueOfX => "Valeur de x :"
  | degree => "Degré de la racine (n), ex. 2 pour la racine carrée :"

/-- An open prompt with the answer typed so far. -/
structure Prompt where
  question : Question
  answer : List Char := []
  deriving DecidableEq, Repr

/-- What the user can do. -/
inductive Action where
  | append (c : Char)
  | calculate
  | backspace
  | clear
  | squareRoot
  | nthRoot
  | trigonometric (f : TrigFunction)
  /-- Answers the prompt. -/
  | submit
  /-- Closes the prompt without an answer. -/
  | cancel
  | requestClearHistory
  | confirmClearHistory
  | cancelClearHistory
  | toggleTheme
  | chooseScale (v : Float32)
  deriving DecidableEq

/-- The actions that an open prompt lets through. -/
def Action.passesPrompt : Action → Bool
  | submit | cancel | toggleTheme | chooseScale _ => true
  | _ => false

/-- The state of a running calculator. -/
structure Session where
  /-- The line being typed, or the last result. -/
  line : List Char := Buffer.cleared
  /-- What the line would give; empty if that is not known. -/
  preview : List Char := []
  history : History := []
  preferences : Preferences := {}
  prompt : Option Prompt := none
  /-- The clearing of the history waits to be confirmed. -/
  isConfirming : Bool := false
  /-- The fault of an operation that was given up, in words. -/
  notice : Option String := none
  deriving DecidableEq

namespace Session

/-- The session after a key has changed the line. -/
def edit (s : Session) (line : List Char) : Session :=
  { s with line, preview := DeskCalculator.preview line, notice := none }

/-- The session after a calculation. -/
def record (s : Session) : Except Fault Outcome → Session
  | .ok o =>
    { s with line := o.display, preview := [], history := s.history ++ [o.entry], notice := none }
  | .error e =>
    if e.keepsDisplay then { s with notice := some e.message }
    else { s with line := Marker.error.word, preview := [], notice := none }

/-- The session with a prompt opened. -/
def ask (s : Session) (question : Question) : Session :=
  { s with prompt := some { question }, notice := none }

/-- The key `=`: solves, asks for the variable, or evaluates. -/
def calculate (s : Session) : Session :=
  match Kind.ofLine s.line with
  | .equation => s.record (Calculation.equation s.line)
  | .withVariable => s.ask .valueOfX
  | .plain => s.record (Calculation.plain s.line)

/-- The calculation that an answered prompt leads to. -/
def answered (line : List Char) (p : Prompt) : Except Fault Outcome :=
  match p.question with
  | .valueOfX => Calculation.withVariable line p.answer
  | .degree => Calculation.nthRoot line p.answer

/-- Closes the prompt and calculates with its answer. -/
def submit (s : Session) : Session :=
  match s.prompt with
  | none => s
  | some p => { s with prompt := none }.record (answered s.line p)

/-- Carries out an action that no prompt holds back. -/
def perform (s : Session) : Action → Session
  | .append c => s.edit (Buffer.append s.line c)
  | .backspace => s.edit (Buffer.backspace s.line)
  | .clear => { s with line := Buffer.cleared, preview := [], notice := none }
  | .calculate => s.calculate
  | .squareRoot => s.record (Calculation.squareRoot s.line)
  | .nthRoot => s.ask .degree
  | .trigonometric f => s.record (Calculation.trigonometric s.line f)
  | .submit => s.submit
  | .cancel => { s with prompt := none }
  | .requestClearHistory => { s with isConfirming := s.isConfirming || !s.history.isEmpty }
  | .confirmClearHistory => { s with history := [], isConfirming := false }
  | .cancelClearHistory => { s with isConfirming := false }
  | .toggleTheme => { s with preferences := s.preferences.toggleTheme }
  | .chooseScale v => { s with preferences := s.preferences.chooseScale v }

/-- Carries out an action, unless an open prompt holds it back. -/
def execute (s : Session) (a : Action) : Session :=
  if s.prompt.isSome && !a.passesPrompt then s else s.perform a

/-- Carries out actions in order. -/
def executeAll (s : Session) (as : List Action) : Session := as.foldl execute s

/-- Puts a text into the field of the open prompt. -/
def setAnswer (s : Session) (answer : List Char) : Session :=
  { s with prompt := s.prompt.map ({ · with answer }) }

end Session

end DeskCalculator
