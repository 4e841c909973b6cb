import DeskCalculator.Record.Piece

/-!
# Reading pieces

A reader takes the pieces that it understands off the front of a list, or fails. The readers below
are for what all parts of a stored record share: marks, and items between commas.
-/

namespace DeskCalculator

namespace Record

/-- A reader of pieces. -/
abbrev Reader (α : Type) : Type := StateT (List Piece) Option α

/-- Reads any piece. -/
def next : Reader Piece
  | [] => none
  | p :: ps => some (p, ps)

/-- Reads a mark. -/
def mark (c : Char) : Reader Unit
  | [] => none
  | p :: ps => if p = .mark c then some ((), ps) else none

/-- Reads a mark if it comes next. -/
def optionalMark (c : Char) : Reader Unit
  | [] => some ((), [])
  | p :: ps => some ((), if p = .mark c then ps else p :: ps)

/-- Reads nothing, and tells whether a mark comes next. -/
def isNext (c : Char) : Reader Bool
  | ps => some (ps.head? == some (.mark c), ps)

/-- Reads a name, raw or not. -/
def name : Reader (List Char)
  | .name s :: ps | .rawName s :: ps => some (s, ps)
  | _ => none

/-- Repeats a step for as long as the condition holds of what is still to be read. A step that reads
nothing is repeated no more often than there are pieces. -/
def repeatWhile {σ : Type} (p : List Piece → Bool) (step : σ → Reader σ) (a : σ) : Reader σ
  | ps => go ps.length a ps
where
  /-- Repeats the step so many times at most. -/
  go : Nat → σ → List Piece → Option (σ × List Piece)
    | 0, a, ps => if p ps then none else some (a, ps)
    | n + 1, a, ps =>
      if p ps then
        match step a ps with
        | some (a, ps) => go n a ps
        | none => none
      else some (a, ps)

/-- Reads the comma behind an item; the last item needs none. -/
def separator (close : Char) : Reader Unit := do
  unless ← isNext close do mark ','

/-- Reads items between commas and the mark that closes them. A comma may stand behind the last
item. -/
def items {σ : Type} (close : Char) (item : σ → Reader σ) (a : σ) : Reader σ := do
  let a ← repeatWhile (·.head? != some (.mark close))
    (fun a ↦ do let a ← item a; separator close; return a) a
  mark close
  return a

end Record

end DeskCalculator
