/-!
# Markers

The three words that stand on the display in place of a number. A display that shows one behaves
as an empty one: the next key replaces it.
-/

namespace DeskCalculator

/-- What the display says when there is no number to show. -/
inductive Marker where
  /-- The calculation was refused. -/
  | error
  /-- Every number solves the equation. -/
  | infinite
  /-- No number solves the equation. -/
  | noSolution
  deriving DecidableEq, Repr

namespace Marker

/-- The word on the display. -/
def word : Marker → List Char
  | error => "Error".toList
  | infinite => "Infinite".toList
  | noSolution => "No solution".toList

/-- All markers. -/
def all : List Marker := [error, infinite, noSolution]

end Marker

/-- Whether the display shows a marker. -/
def isMarker (s : List Char) : Bool := Marker.all.any fun m ↦ s == m.word

end DeskCalculator
