import DeskCalculator.Record.Quoted
import DeskCalculator.Text.Ends
import DeskCalculator.Text.Name

/-!
# Pieces of a stored record

A stored record is cut into names, numbers, quoted literals and marks. Blanks and comments stand
between them: a comment runs from two slashes to the end of its line, or from `/*` to the `*/` that
belongs to it, and comments of the second kind may hold one another.
-/

namespace DeskCalculator

namespace Record

/-- The pieces of a stored record. -/
inductive Piece where
  /-- A name. -/
  | name (s : List Char)
  /-- A name written behind `r#`, which has no other meaning than to name. -/
  | rawName (s : List Char)
  /-- The characters of a number. -/
  | number (s : List Char)
  /-- A character, a text or bytes in quotes. -/
  | quoted
  /-- A bracket, a colon, a comma, or a character of the head. -/
  | mark (c : Char)
  deriving DecidableEq, Repr

/-! ## Classes of characters -/

/-- The blanks between pieces, those of the Unicode property *Pattern_White_Space*. -/
def isSpace (c : Char) : Bool :=
  (0x09 ≤ c.toNat && c.toNat ≤ 0x0d)
    || [0x20, 0x85, 0x200e, 0x200f, 0x2028, 0x2029].contains c.toNat

/-- The pieces of one character. -/
def isMark (c : Char) : Bool := "()[]\x7b\x7d:,#!".toList.contains c

/-- What a raw name is written with. -/
def isRawNameChar (c : Char) : Bool := isNameChar c || ".+-".toList.contains c

/-- What a number begins with. -/
def isNumberStart (c : Char) : Bool := c.isDigit || "+-.".toList.contains c

/-- What a number goes on with. -/
def isNumberChar (c : Char) : Bool := c.isAlphanum || "+-._".toList.contains c

/-! ## Comments -/

/-- The length of a comment behind its `/*`, given how many other comments it stands in. -/
def blockLength? : Nat → List Char → Option Nat
  | 0, '*' :: '/' :: _ => some 2
  | n + 1, '*' :: '/' :: s => (· + 2) <$> blockLength? n s
  | n, '/' :: '*' :: s => (· + 2) <$> blockLength? (n + 1) s
  | n, _ :: s => (· + 1) <$> blockLength? n s
  | _, [] => none

/-- The length of a comment behind its first slash. -/
def commentLength? : List Char → Option Nat
  | '/' :: s => some ((s.takeWhile (· != '\n')).length + 1)
  | '*' :: s => (· + 1) <$> blockLength? 0 s
  | _ => none

/-! ## Cutting -/

/-- The piece that begins with a letter, and how many characters it takes behind that letter. The
letters `r` and `b` may also begin a raw text, a raw name, a byte or bytes. -/
def lettered? (c : Char) (s : List Char) : Option (Piece × Nat) :=
  match c, s with
  | 'b', '\'' :: s => (.quoted, · + 1) <$> singleLength? .byte s
  | 'b', '"' :: s => (.quoted, · + 1) <$> textLength? .bytes s
  | 'b', 'r' :: '"' :: s => (.quoted, · + 2) <$> rawLength? 0 s
  | 'b', 'r' :: '#' :: '"' :: s => (.quoted, · + 3) <$> rawLength? 1 s
  | 'r', '"' :: s => (.quoted, · + 1) <$> rawLength? 0 s
  | 'r', '#' :: s =>
    let signs := (s.takeWhile (· == '#')).length + 1
    let name := s.takeWhile isRawNameChar
    if name.isEmpty then
      match s.drop (signs - 1) with
      | '"' :: s => (.quoted, · + (signs + 1)) <$> rawLength? signs s
      | _ => none
    else some (.rawName name, name.length + 1)
  | _, _ =>
    let rest := s.takeWhile isNameChar
    some (.name (c :: rest), rest.length)

/-- What stands at the head of a line that begins with the character `c` and goes on with `s`, and
how many characters of `s` belong to it: a piece, or a blank or a comment, which is no piece. -/
def first? (c : Char) (s : List Char) : Option (Option Piece × Nat) :=
  if isSpace c then some (none, 0)
  else if c == '/' then (none, ·) <$> commentLength? s
  else if isMark c then some (some (.mark c), 0)
  else if c == '"' then (some .quoted, ·) <$> textLength? .text s
  else if c == '\'' then (some .quoted, ·) <$> singleLength? .character s
  else if isNameStart c || c == '_' then (fun (p, n) ↦ (some p, n)) <$> lettered? c s
  else if isNumberStart c then
    let rest := s.takeWhile isNumberChar
    some (some (.number (c :: rest)), rest.length)
  else none

/-- The pieces of a line. -/
def pieces : List Char → Option (List Piece)
  | [] => some []
  | c :: s =>
    match first? c s with
    | some (p, n) => (p.toList ++ ·) <$> pieces (s.drop n)
    | none => none
termination_by s => s.length
decreasing_by
  rw [List.length_drop]
  exact Nat.lt_succ_of_le (Nat.sub_le ..)

end Record

end DeskCalculator
