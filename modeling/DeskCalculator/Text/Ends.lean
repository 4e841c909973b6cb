/-!
# The two ends of a list

`List.dropWhile` shortens a list at its front; `dropEndWhile` shortens it at its end.
-/

namespace DeskCalculator

/-- What is left of a list once its longest final stretch of `p` is gone. -/
def dropEndWhile {α : Type} (p : α → Bool) (s : List α) : List α :=
  (s.reverse.dropWhile p).reverse

/-- Dropping never lengthens; recursions that drop a stretch of a line end by this. -/
theorem length_dropWhile_le {α : Type} (p : α → Bool) (s : List α) :
    (s.dropWhile p).length ≤ s.length :=
  (List.dropWhile_sublist p).length_le

end DeskCalculator
