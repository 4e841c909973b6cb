import DeskCalculator.Record.Number
import DeskCalculator.Record.Reader

/-!
# Values that are passed over

A field that means nothing to a reader may hold any value: a literal, a number, a name with or
without fields, a list, a map, an optional value, one in another up to a limit. Such a value is
checked and forgotten.
-/

namespace DeskCalculator

namespace Record

/-- Groups lie in one another at most this deep, counting each group and each of its items. -/
def nestingLimit : Nat := 128

/-- The names that stand for a value and take no fields. -/
def isConstant (s : List Char) : Bool :=
  ["true", "false", "None"].any (·.toList == s) || (nonFinite? s).isSome

/-- The name in front of an optional value that is there. -/
def presentName : String := "Some"

/-- The fields of a group are named. -/
def isRecord : List Piece → Bool
  | .name _ :: .mark ':' :: _ | .rawName _ :: .mark ':' :: _ => true
  | _ => false

/-- A group, behind its opening bracket, has more than one item; `depth` counts the brackets that
are open inside it. -/
def hasSeveral (depth : Nat) : List Piece → Bool
  | [] => false
  | .mark c :: ps =>
    if c == ',' && depth == 0 then ps.head? != some (.mark ')')
    else if "([\x7b".toList.contains c then hasSeveral (depth + 1) ps
    else if ")]\x7d".toList.contains c then depth != 0 && hasSeveral (depth - 1) ps
    else hasSeveral depth ps
  | _ :: ps => hasSeveral depth ps

/-- Reads the rest of a group behind its opening bracket. The readers in `inner` are those of values
one level further in, two levels and so on to the limit: the group takes one level and each item
another, so at the last level there is room for an empty group. -/
def skipGroup (inner : List (Reader Unit)) (c : Char) : Reader Unit := do
  let value := inner.getD 1 failure
  let entry (key : Reader Unit) : Unit → Reader Unit := fun _ ↦ do key; mark ':'; value
  if inner.isEmpty then failure
  else if c == '[' then items ']' (fun _ ↦ value) ()
  else if c == '\x7b' then items '\x7d' (entry value) ()
  else if isRecord (← get) then items ')' (entry (discard name)) ()
  else items ')' (fun _ ↦ value) ()

/-- Reads an optional value behind its name. Where `bare` groups are enabled, it may be a group
without brackets of its own. -/
def skipPresent (bare : Bool) (inner : List (Reader Unit)) : Reader Unit := do
  mark '('
  let rest ← get
  if bare && (isRecord rest || hasSeveral 0 rest || (← isNext ')')) then skipGroup inner.tail '('
  else
    inner.headD failure
    optionalMark ','
    mark ')'

/-- Reads one value, given the readers of values further in. -/
def skipOne (bare : Bool) (inner : List (Reader Unit)) : Reader Unit := do
  match ← next with
  | .quoted => return
  | .number s => guard (isNumber s)
  | .name s =>
    if isConstant s then return
    else if s == presentName.toList then skipPresent bare inner
    else skipFields
  | .rawName _ => skipFields
  | .mark c =>
    if c == '(' && (← isNext ')') then mark ')'
    else if "([\x7b".toList.contains c then skipGroup inner c
    else failure
where
  /-- Reads the fields behind a name, if there are any. -/
  skipFields : Reader Unit := do
    if ← isNext '(' then
      mark '('
      skipGroup inner '('

/-- The readers of values at so many levels, the nearest first. -/
def skipLevels (bare : Bool) : Nat → List (Reader Unit)
  | 0 => []
  | n + 1 => skipOne bare (skipLevels bare n) :: skipLevels bare n

/-- Reads the value of a field of the outermost record, which takes two levels itself. -/
def skipValue (bare : Bool) : Reader Unit := skipOne bare (skipLevels bare (nestingLimit - 2))

end Record

end DeskCalculator
