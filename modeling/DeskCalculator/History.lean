/-!
# The history

The calculations of a session, the oldest first. An entry is a line of text, and for an equation
the way to its solution and perhaps a warning.
-/

namespace DeskCalculator

/-- A calculation in the history. -/
structure Entry where
  /-- The calculation and its result. -/
  calculation : String
  /-- The way to the result, line by line; empty if there is none to show. -/
  steps : List String := []
  /-- A reservation about the result. -/
  warning : Option String := none
  deriving DecidableEq, Repr

/-- The way to the result as one text. -/
def Entry.stepsText (e : Entry) : String := "\n".intercalate e.steps

/-- The calculations of a session. -/
abbrev History := List Entry

end DeskCalculator
