import DeskCalculator.Text.Ends

/-!
# White space

The blank characters of a line, and the trimming of a line at its ends.

Blanks are the twenty-five characters of the Unicode property *White_Space*, so a no-break space
or an ideographic space separates and is trimmed as well as the space bar's character.
-/

namespace DeskCalculator

/-- The code points of the blanks, as ranges with both ends included. -/
def blankRanges : List (Nat × Nat) :=
  [(0x09, 0x0d), (0x20, 0x20), (0x85, 0x85), (0xa0, 0xa0), (0x1680, 0x1680), (0x2000, 0x200a),
    (0x2028, 0x2029), (0x202f, 0x202f), (0x205f, 0x205f), (0x3000, 0x3000)]

/-- White space. -/
def isBlank (c : Char) : Bool :=
  blankRanges.any fun r ↦ r.1 ≤ c.toNat && c.toNat ≤ r.2

/-- A line without the blanks at its two ends. -/
def trim (s : List Char) : List Char :=
  dropEndWhile isBlank (s.dropWhile isBlank)

end DeskCalculator
