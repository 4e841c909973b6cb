import DeskCalculator.Session.Basic

/-!
# The keyboard

Which actions the keyboard leads to while no text field has the focus. On the keyboard `x` is the
multiplication sign; the variable has its own button.
-/

namespace DeskCalculator

/-- The keys that are more than a character. -/
inductive Key where
  | enter
  | backspace
  | escape
  | other
  deriving DecidableEq, Repr

/-- What the keyboard reports. -/
inductive Event where
  /-- Characters that are typed. -/
  | text (s : List Char)
  /-- A key that goes down, again if it is held, or up. -/
  | key (k : Key) (isPressed : Bool)
  | other
  deriving DecidableEq, Repr

/-- The action of a typed character. -/
def Action.ofChar? (c : Char) : Option Action :=
  if c.isDigit || ".()+-/%".toList.contains c then some (append c)
  else if "*xX".toList.contains c then some (append '*')
  else if c == '=' then some calculate
  else if c == 'c' || c == 'C' then some clear
  else if c == 'r' then some squareRoot
  else if c == 'R' then some nthRoot
  else none

/-- The action of a key. -/
def Action.ofKey? : Key → Option Action
  | .enter => some calculate
  | .backspace => some backspace
  | .escape => some clear
  | .other => none

namespace Event

/-- The actions of one event, in order. -/
def actions : Event → List Action
  | text s => s.filterMap Action.ofChar?
  | key k true => (Action.ofKey? k).toList
  | key _ false => []
  | other => []

/-- Whether a key goes down. -/
def presses (k : Key) : Event → Bool
  | key k' true => k == k'
  | _ => false

end Event

/-- The actions of a list of events. -/
def keyboardActions (events : List Event) : List Action := events.flatMap Event.actions

end DeskCalculator
