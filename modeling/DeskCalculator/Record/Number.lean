import DeskCalculator.Number.Numeral
import DeskCalculator.Record.Quoted

/-!
# Numbers in a stored record

A number is a run of letters, digits, points, signs and underscores. It is a decimal fraction with
or without an exponent, a whole number in base two, eight, ten or sixteen, or a signed `inf` or
`NaN`. Underscores group the digits, and the width of the number may be written behind it, as in
`1_000u16` and `1.5f32`.
-/

namespace DeskCalculator

namespace Record

/-! ## Decimal fractions -/

/-- The characters of a fraction before its width. -/
def isFractionChar (c : Char) : Bool := c.isDigit || "eE.+-_".toList.contains c

/-- The characters without the underscores. An underscore has its place behind a digit or behind the
letter of the exponent, and signs and other underscores may stand between; `placed` says that the
characters before these have made a place for one. -/
def withoutUnderscores? (placed : Bool) : List Char → Option (List Char)
  | [] => some []
  | c :: s =>
    if c == '_' then if placed then withoutUnderscores? placed s else none
    else
      let placed := c.isDigit || c == 'e' || c == 'E' || (placed && c != '.')
      (c :: ·) <$> withoutUnderscores? placed s

/-- The format that a written width stands for; a width that is left out stands for none. -/
def format? (width : List Char) : Option (Option BinaryFormat) :=
  if width.isEmpty then some none
  else if width == "f32".toList then some (some .single)
  else if width == "f64".toList then some (some .double)
  else none

/-- A decimal fraction, and the format of its width. -/
def fraction? (s : List Char) : Option (Numeral × Option BinaryFormat) := do
  let format ← format? (s.dropWhile isFractionChar)
  let body ← withoutUnderscores? false (s.takeWhile isFractionChar)
  match Numeral.leading? Char.isDigit body with
  | some (n, []) => some (n, format)
  | _ => none

/-! ## Single precision -/

/-- A value that is not finite, and the format of its width: a sign or none, and its name. -/
def nonFinite? (s : List Char) : Option (Float32 × Option BinaryFormat) := do
  let (isNegative, unsigned) := Numeral.sign s
  let format ← format? (unsigned.drop 3)
  let name := unsigned.take 3
  if name == "inf".toList then some (if isNegative then -1.0 / 0.0 else 1.0 / 0.0, format)
  else if name == "NaN".toList then some (0.0 / 0.0, format)
  else none

/-- The value of a number in single precision. A number that is marked as a double has none, and
neither has one in another base than ten. -/
def single? (s : List Char) : Option Float32 := do
  let (v, format) ← nonFinite? s <|> (fun (n, format) ↦ (ofNumeral n, format)) <$> fraction? s
  if format == some .double then none else some v
where
  /-- The value nearest to a numeral. -/
  ofNumeral (n : Numeral) : Float32 :=
    let code := n.code .single
    Float32.ofBits (UInt32.ofNat (if n.isNegative then Nat.pow 2 31 + code else code))

/-! ## Whole numbers -/

/-- The base of a whole number, and its digits. -/
def splitBase : List Char → Nat × List Char
  | '0' :: 'b' :: s => (2, s)
  | '0' :: 'o' :: s => (8, s)
  | '0' :: 'x' :: s => (16, s)
  | s => (10, s)

/-- A whole number fits so many bits. With a sign bit among them, the magnitude of a negative number
may be one more than that of a positive one; without one, zero is the only negative number. -/
def fits (hasSign : Bool) (bits : Nat) (isNegative : Bool) (magnitude : Nat) : Bool :=
  if hasSign then
    if isNegative then magnitude ≤ Nat.pow 2 (bits - 1) else magnitude < Nat.pow 2 (bits - 1)
  else if isNegative then magnitude == 0
  else magnitude < Nat.pow 2 bits

/-- The widths of whole numbers. -/
def integerWidths : List Nat := [8, 16, 32, 64, 128]

/-- The width of a whole number: its letter says whether there is a sign bit, and its number how
many bits there are. -/
def integerWidth? : List Char → Option (Bool × Nat)
  | c :: digits =>
    match integerWidths.find? fun n ↦ (toString n).toList == digits with
    | some bits =>
      if c == 'i' then some (true, bits) else if c == 'u' then some (false, bits) else none
    | none => none
  | [] => none

/-- A whole number. Without a written width it has 128 bits, except that a decimal one is read as a
fraction when it is larger. A width stands behind decimal and binary digits only. -/
def isInteger (s : List Char) : Bool :=
  let (isNegative, unsigned) := Numeral.sign s
  let isWidthLetter (c : Char) : Bool := c == 'i' || c == 'u'
  let (base, digits) := splitBase (unsigned.takeWhile (!isWidthLetter ·))
  let width := unsigned.dropWhile (!isWidthLetter ·)
  let magnitude := ofDigits base (digits.filter (· != '_'))
  !digits.isEmpty && digits.head? != some '_'
    && digits.all (fun c ↦ c == '_' || digitValue c < base)
    && if width.isEmpty then base == 10 || fits isNegative 128 isNegative magnitude
      else match integerWidth? width with
        | some (hasSign, bits) =>
          (base == 2 || base == 10) && fits hasSign bits isNegative magnitude
        | none => false

/-- A number of any kind. -/
def isNumber (s : List Char) : Bool :=
  (fraction? s).isSome || isInteger s || (nonFinite? s).isSome

end Record

end DeskCalculator
