import DeskCalculator.Session.Basic

/-!
# The window

What a session looks like: its texts and its buttons, in the order in which they are laid out. The
window adds to the session only which entries of the history have their way unfolded; it remembers
them by their positions, so a position keeps its state when the history is cleared and filled
again.

While a prompt or a confirmation is open, only its own buttons and those for the looks are
enabled.
-/

namespace DeskCalculator

/-- A session on the screen. -/
structure Window where
  session : Session := {}
  /-- The positions in the history whose way is unfolded. -/
  unfolded : List Nat := []

/-- What a click on a button does. -/
inductive Effect where
  | act (a : Action)
  /-- Folds or unfolds the way of the entry at a position. -/
  | fold (position : Nat)
  /-- Puts a text into the clipboard. -/
  | copy (text : String)

/-- A button of the window. -/
structure Button where
  label : String
  isEnabled : Bool
  effect : Effect

namespace Window

variable (w : Window)

/-- A prompt or a confirmation is open. -/
def isModal : Bool := w.session.prompt.isSome || w.session.isConfirming

/-- The entries of the history with their positions. -/
def entries : List (Entry × Nat) := w.session.history.zipIdx

/-! ## Buttons -/

/-- A button that an open prompt or confirmation disables. -/
def panelButton (label : String) (a : Action) : Button := ⟨label, !w.isModal, .act a⟩

/-- The buttons for the looks. -/
def looksButtons : List Button :=
  ⟨if w.session.preferences.isDark then "☀ Clair" else "🌙 Sombre", true, .act .toggleTheme⟩
    :: Scale.all.map fun s ↦ ⟨s.label, true, .act (.chooseScale s.factor)⟩

/-- The buttons of an entry with a way: one folds it, and one copies it when it is unfolded. -/
def entryButtons (e : Entry × Nat) : List Button :=
  if e.1.steps.isEmpty then []
  else ⟨"Démarche", !w.isModal, .fold e.2⟩
    :: if w.unfolded.contains e.2 then [⟨"Copier", !w.isModal, .copy e.1.stepsText⟩] else []

/-- The buttons of the history. -/
def historyButtons : List Button :=
  ⟨"Tout effacer", !w.isModal && !w.session.history.isEmpty, .act .requestClearHistory⟩
    :: w.entries.flatMap w.entryButtons

/-- The buttons of the functions. -/
def functionButtons : List Button :=
  [w.panelButton "√" .squareRoot, w.panelButton "n√" .nthRoot]
    ++ TrigFunction.all.map (fun f ↦ w.panelButton f.name (.trigonometric f))
    ++ [w.panelButton "x" (.append 'x'), w.panelButton "^" (.append '^'),
      w.panelButton "éq =" (.append '=')]

/-- The keys of the keypad, row by row. -/
def keypad : List (String × Action) :=
  [("C", .clear), ("DEL", .backspace), ("%", .append '%'), ("÷", .append '/'),
    ("7", .append '7'), ("8", .append '8'), ("9", .append '9'), ("×", .append '*'),
    ("4", .append '4'), ("5", .append '5'), ("6", .append '6'), ("-", .append '-'),
    ("1", .append '1'), ("2", .append '2'), ("3", .append '3'), ("+", .append '+'),
    ("0", .append '0'), (".", .append '.'), ("(", .append '('), (")", .append ')'),
    ("=", .calculate)]

/-- The buttons of the keypad. -/
def keypadButtons : List Button := keypad.map fun k ↦ w.panelButton k.1 k.2

/-- The buttons of the open prompt. -/
def promptButtons : List Button :=
  if w.session.prompt.isSome then
    [⟨"OK", true, .act .submit⟩, ⟨"Annuler", true, .act .cancel⟩]
  else []

/-- The buttons of the open confirmation. -/
def confirmationButtons : List Button :=
  if w.session.isConfirming then
    [⟨"Effacer", true, .act .confirmClearHistory⟩, ⟨"Annuler", true, .act .cancelClearHistory⟩]
  else []

/-- All buttons, in order. -/
def buttons : List Button :=
  w.looksButtons ++ w.historyButtons ++ w.functionButtons ++ w.keypadButtons ++ w.promptButtons
    ++ w.confirmationButtons

/-- The button with this label that has `n` such buttons before it. -/
def button? (label : String) (n : Nat) : Option Button :=
  (w.buttons.filter (·.label == label))[n]?

/-! ## Texts -/

/-- The texts of an entry: the calculation, a mark if there is a warning, and the way if it is
unfolded. -/
def entryTexts (e : Entry × Nat) : List String :=
  e.1.calculation :: (if e.1.warning.isSome then ["(?)"] else [])
    ++ if w.unfolded.contains e.2 then e.1.steps else []

/-- The texts of the history. -/
def historyTexts : List String :=
  ("Historique (" ++ toString w.session.history.length ++ ")")
    :: if w.session.history.isEmpty then ["Aucun calcul."] else w.entries.flatMap w.entryTexts

/-- The texts of the display. -/
def displayTexts : List String :=
  [String.ofList (displayedLine w.session.line),
    if w.session.preview.isEmpty then " " else String.ofList w.session.preview]
    ++ w.session.notice.toList

/-- The questions of the open prompt and the open confirmation. -/
def questions : List String :=
  (w.session.prompt.map (·.question.text)).toList
    ++ if w.session.isConfirming then ["Effacer tout l’historique des calculs ?"] else []

/-- All texts, in order. -/
def texts : List String :=
  ["Calculatrice", "Taille :"] ++ w.historyTexts ++ w.displayTexts ++ w.questions

/-- The number of text fields. -/
def fieldCount : Nat := if w.session.prompt.isSome then 1 else 0

end Window

end DeskCalculator
