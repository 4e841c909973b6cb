import DeskCalculator.Preferences.Scale

/-!
# Preferences

The theme and the size of the display. They alone outlive a session.
-/

namespace DeskCalculator

/-- What the user has chosen about the looks of the calculator. -/
structure Preferences where
  /-- The dark theme. -/
  isDark : Bool := false
  /-- The size of the display. -/
  scale : Scale := .normal
  deriving DecidableEq, Repr

namespace Preferences

/-- The other theme. -/
def toggleTheme (p : Preferences) : Preferences := { p with isDark := !p.isDark }

/-- The offered size nearest to a factor. -/
def chooseScale (p : Preferences) (v : Float32) : Preferences := { p with scale := Scale.nearest v }

end Preferences

end DeskCalculator
