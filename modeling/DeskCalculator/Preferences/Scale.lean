/-!
# Sizes of the display

The five sizes that are offered, as factors in single precision. Any other factor is brought to
the nearest offered one: the distance is computed in single precision, and of several equally near
sizes the smallest is taken. A factor that is not finite gives the normal size.
-/

namespace DeskCalculator

/-- The offered sizes. -/
inductive Scale where
  | smallest
  | small
  | normal
  | large
  | largest
  deriving DecidableEq, Repr

namespace Scale

/-- The factor of a size. -/
def factor : Scale → Float32
  | smallest => 0.8
  | small => 0.9
  | normal => 1.0
  | large => 1.1
  | largest => 1.25

/-- The factor in the fewest digits. -/
def label : Scale → String
  | smallest => "0.8"
  | small => "0.9"
  | normal => "1"
  | large => "1.1"
  | largest => "1.25"

/-- The sizes after the smallest, in increasing order. -/
def beyondSmallest : List Scale := [small, normal, large, largest]

/-- All sizes in increasing order. -/
def all : List Scale := smallest :: beyondSmallest

/-- The distance of a size from a factor. -/
def distance (v : Float32) (s : Scale) : Float32 := (s.factor - v).abs

/-- The offered size nearest to a factor. -/
def nearest (v : Float32) : Scale :=
  if v.isFinite then
    beyondSmallest.foldl (fun best s ↦ if distance v s < distance v best then s else best) smallest
  else normal

end Scale

end DeskCalculator
