import DeskCalculator.Session.Keyboard
import DeskCalculator.Window.Basic

/-!
# Frames

The window advances frame by frame. A frame brings at most one click and a list of keyboard
events.

What is open when the frame begins decides where the events go. An open prompt takes them:
characters go to its field, `Enter` answers it and `Escape` closes it. An open confirmation lets
them fall. Otherwise they are actions on the session, carried out after the click; so a click or a
key that opens a prompt in this frame leaves it empty, and the actions behind it are held back.
-/

namespace DeskCalculator

/-- A click on the button with this label that has `n` such buttons before it. -/
structure Click where
  label : String
  n : Nat := 0
  deriving DecidableEq, Repr

/-- What happens between two pictures of the window. -/
structure Frame where
  click : Option Click := none
  events : List Event := []
  deriving DecidableEq, Repr

/-- What became of a click. -/
inductive ClickResult where
  | none
  | absent
  | disabled
  | done
  deriving DecidableEq, Repr

/-! ## The field of a prompt -/

/-- The field after one event. A lone line break is not typed. -/
def typeEvent (field : List Char) : Event → List Char
  | .text s => if s == ['\n'] || s == ['\r'] then field else field ++ s
  | .key .backspace true => field.dropLast
  | _ => field

/-- The field after the events of a frame. `Enter` ends the typing, and `Escape` takes the field's
focus before anything is typed. -/
def typeInto (field : List Char) (events : List Event) : List Char :=
  if events.any (·.presses .escape) then field
  else (events.takeWhile fun e ↦ !e.presses .enter).foldl typeEvent field

namespace Window

/-- The effect of a click: none if its button is missing or disabled. -/
def effect? (w : Window) (c : Click) : Option Effect :=
  match w.button? c.label c.n with
  | some b => if b.isEnabled then some b.effect else none
  | none => none

/-- What becomes of a click. -/
def clickResult (w : Window) : Option Click → ClickResult
  | none => .none
  | some c =>
    match w.button? c.label c.n with
    | none => .absent
    | some b => if b.isEnabled then .done else .disabled

/-- The session with the characters of a frame in the field of its prompt. -/
def typed (w : Window) (f : Frame) : Session :=
  match w.session.prompt with
  | none => w.session
  | some p => w.session.setAnswer (typeInto p.answer f.events)

/-- The action of a clicked button. -/
def clicked (w : Window) (f : Frame) : Option Action :=
  match f.click.bind w.effect? with
  | some (.act a) => some a
  | _ => none

/-- The actions of an open prompt in a frame: answered, closed, or both in this order. -/
def promptActions (w : Window) (f : Frame) : List Action :=
  if w.session.prompt.isSome then
    (if w.clicked f = some .submit || f.events.any (·.presses .enter) then [.submit] else [])
      ++ if w.clicked f = some .cancel || f.events.any (·.presses .escape) then [.cancel] else []
  else []

/-- Whether a clicked action is one of the open confirmation. -/
def isConfirmation : Action → Bool
  | .confirmClearHistory | .cancelClearHistory => true
  | _ => false

/-- Whether a clicked action is one of the open prompt. -/
def isAnswer : Action → Bool
  | .submit | .cancel => true
  | _ => false

/-- The actions of the window in a frame, in the order of its parts: panels, prompt, confirmation.
-/
def windowActions (w : Window) (f : Frame) : List Action :=
  let clicked := (w.clicked f).toList
  clicked.filter (fun a ↦ !isAnswer a && !isConfirmation a) ++ w.promptActions f
    ++ clicked.filter isConfirmation

/-- The actions of the keyboard in a frame: none if a prompt or a confirmation is open. -/
def globalActions (w : Window) (f : Frame) : List Action :=
  if w.isModal then [] else keyboardActions f.events

/-- The positions unfolded after a frame. -/
def unfoldedAfter (w : Window) (f : Frame) : List Nat :=
  match f.click.bind w.effect? with
  | some (.fold i) => if w.unfolded.contains i then w.unfolded.filter (· != i) else i :: w.unfolded
  | _ => w.unfolded

/-- The texts that a frame puts into the clipboard. -/
def copies (w : Window) (f : Frame) : List String :=
  match f.click.bind w.effect? with
  | some (.copy text) => [text]
  | _ => []

/-- The window after a frame. -/
def advance (w : Window) (f : Frame) : Window where
  session := ((w.typed f).executeAll (w.windowActions f)).executeAll (w.globalActions f)
  unfolded := w.unfoldedAfter f

end Window

end DeskCalculator
