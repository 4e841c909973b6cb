import DeskCalculator.Preferences.Basic
import DeskCalculator.Record.Head
import DeskCalculator.Record.Value

/-!
# Stored preferences

Preferences are stored as a record in parentheses, `(mode_sombre:true,echelle:1.25)`. A stored
text is read more freely than it is written: blanks and comments between the pieces, attributes and
the record's name in front, the fields in any order, a comma behind the last one. A field that is
missing has its default; a field of another name is passed over, if it holds a value at all. A text
that is no such record, a field given twice and a value of the wrong kind make the whole text
unreadable, and the defaults are used.
-/

namespace DeskCalculator

namespace Stored

open Record

/-- The name that may stand before the record. -/
def recordName : String := "Preferences"

/-- The name of the theme's field. -/
def themeField : String := "mode_sombre"

/-- The name of the size's field. -/
def scaleField : String := "echelle"

/-- The fields read so far. -/
structure Fields where
  /-- The theme, if its field was read. -/
  isDark : Option Bool := none
  /-- The factor of the size, if its field was read. -/
  factor : Option Float32 := none

/-! ## Readers -/

/-- Reads a truth value. -/
def truthValue : Reader Bool := do
  match ← next with
  | .name s =>
    if s == "true".toList then return true
    else if s == "false".toList then return false
    else failure
  | _ => failure

/-- Reads a number in single precision. What is not finite may be named. -/
def factorValue : Reader Float32 := do
  match ← next with
  | .number s | .name s =>
    match single? s with
    | some v => return v
    | none => failure
  | _ => failure

/-- Reads one more field. -/
def field (extensions : List Extension) (f : Fields) : Reader Fields := do
  let label ← name
  mark ':'
  if label == themeField.toList then
    guard f.isDark.isNone
    return { f with isDark := some (← truthValue) }
  else if label == scaleField.toList then
    guard f.factor.isNone
    return { f with factor := some (← factorValue) }
  else
    skipValue (extensions.contains .bareGroups)
    return f

/-- Reads the record's name. It may be left out unless it is asked for. -/
def title (isRequired : Bool) : Reader Unit := do
  if ← isNext '(' then guard !isRequired
  else guard ((← name) == recordName.toList)

/-- Reads a whole stored text. -/
def fields : Reader Fields := do
  let extensions ← attributes
  title (extensions.contains .explicitNames)
  mark '('
  items ')' (field extensions) {}

end Stored

namespace Preferences

/-- The name under which the preferences are stored. -/
def storeKey : String := "calculatrice_historique.preferences"

/-- The preferences in a stored text, if it can be read. -/
def read? (text : List Char) : Option Preferences := do
  match ← Stored.fields (← Record.pieces text) with
  | (f, []) => return {
      isDark := f.isDark.getD false
      scale := match f.factor with
        | some v => Scale.nearest v
        | none => .normal }
  | _ => none

/-- The preferences at the start of a session. -/
def load (stored : Option (List Char)) : Preferences := (stored.bind read?).getD {}

/-- The text that is stored. A whole factor has a zero behind its point. -/
def stored (p : Preferences) : String :=
  let dark := if p.isDark then "true" else "false"
  let factor := match p.scale with
    | .normal => p.scale.label ++ ".0"
    | s => s.label
  "(" ++ Stored.themeField ++ ":" ++ dark ++ "," ++ Stored.scaleField ++ ":" ++ factor ++ ")"

end Preferences

end DeskCalculator
