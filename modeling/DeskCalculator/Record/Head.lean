import DeskCalculator.Record.Reader

/-!
# The head of a stored record

Attributes such as `#![enable(implicit_some)]` may stand in front of a stored record. They enable
extensions of the way in which the record is written.
-/

namespace DeskCalculator

namespace Record

/-- The extensions. -/
inductive Extension where
  /-- Values in a wrapper are written without it. -/
  | bareWrappers
  /-- Optional values are written without their name. -/
  | bareOptions
  /-- Groups in an optional value are written without brackets of their own. -/
  | bareGroups
  /-- The name of a record has to be written. -/
  | explicitNames
  deriving DecidableEq, Repr

namespace Extension

/-- The name of an extension. -/
def label : Extension → String
  | bareWrappers => "unwrap_newtypes"
  | bareOptions => "implicit_some"
  | bareGroups => "unwrap_variant_newtypes"
  | explicitNames => "explicit_struct_names"

/-- All extensions. -/
def all : List Extension := [bareWrappers, bareOptions, bareGroups, explicitNames]

/-- The extension of a name. -/
def ofLabel? (s : List Char) : Option Extension := all.find? (·.label.toList == s)

end Extension

/-- Reads the name of one more extension. -/
def extension (found : List Extension) : Reader (List Extension) := do
  match Extension.ofLabel? (← name) with
  | some e => return e :: found
  | none => failure

/-- Reads one more attribute, which enables at least one extension. -/
def enableAttribute (found : List Extension) : Reader (List Extension) := do
  mark '#'
  mark '!'
  mark '['
  guard ((← next) = .name "enable".toList)
  mark '('
  if ← isNext ')' then failure
  let found ← items ')' extension found
  mark ']'
  return found

/-- Reads all attributes. -/
def attributes : Reader (List Extension) :=
  repeatWhile (·.head? == some (.mark '#')) enableAttribute []

end Record

end DeskCalculator
