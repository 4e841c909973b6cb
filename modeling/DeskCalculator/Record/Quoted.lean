/-!
# Quoted literals

Characters and texts in quotes, as a stored record may hold them: `'a'`, `"a"`, the bytes `b'a'` and
`b"a"`, and raw texts, whose closing quote is followed by as many number signs as stand before the
opening one.

A literal is measured: how many characters of the line it takes behind its opening quote. Nothing
that is stored has a text for its value, so what a literal stands for is never needed; that its
escapes make sense is.
-/

namespace DeskCalculator

namespace Record

/-! ## Digits -/

/-- The value of a digit in a base up to sixteen; any other character has the value sixteen, so it
is below no base. -/
def digitValue (c : Char) : Nat :=
  if c.isDigit then c.toNat - '0'.toNat
  else if 'a' ≤ c ∧ c ≤ 'f' then c.toNat - 'a'.toNat + 10
  else if 'A' ≤ c ∧ c ≤ 'F' then c.toNat - 'A'.toNat + 10
  else 16

/-- A hexadecimal digit. -/
def isHexDigit (c : Char) : Bool := digitValue c < 16

/-- The number that digits write in a base. -/
def ofDigits (base : Nat) (ds : List Char) : Nat :=
  ds.foldl (fun n c ↦ base * n + digitValue c) 0

/-! ## Escapes -/

/-- What a literal holds between its quotes. -/
inductive Quotation where
  /-- One character. -/
  | character
  /-- Any number of characters. -/
  | text
  /-- One byte. -/
  | byte
  /-- Any number of bytes. -/
  | bytes
  deriving DecidableEq, Repr

/-- The byte at the head of a line, written with two hexadecimal digits. -/
def byte? : List Char → Option Nat
  | a :: b :: _ => if isHexDigit a && isHexDigit b then some (ofDigits 16 [a, b]) else none
  | _ => none

/-- The bytes of so many escapes `\xHH` in a row at the head of a line. -/
def escapedBytes? : Nat → List Char → Option (List Nat)
  | 0, _ => some []
  | n + 1, '\\' :: 'x' :: s =>
    match byte? s with
    | some b => (b :: ·) <$> escapedBytes? n (s.drop 2)
    | none => none
  | _, _ => none

/-- How many bytes follow a byte at the head of a character's encoding. Every byte beyond the first
128 counts as such a head; what is no encoding is found out by `isEncoding`. -/
def continuationCount (head : Nat) : Nat :=
  if head < 0xe0 then 1 else if head < 0xf0 then 2 else 3

/-- The bytes are the UTF-8 encoding of one character. -/
def isEncoding : List Nat → Bool
  | [] => false
  | head :: rest =>
    let lead := head % Nat.pow 2 (6 - rest.length)
    let n := rest.foldl (fun n b ↦ 64 * n + b % 64) lead
    n.isValidChar && (String.utf8EncodeChar (Char.ofNat n)).map UInt8.toNat == head :: rest

/-- The length of an escape from the letter `x` on. A byte beyond the first 128 is a character only
together with the bytes of the escapes that follow it, and one character has room for one escape. -/
def byteEscapeLength? (q : Quotation) (s : List Char) : Option Nat :=
  match byte? s with
  | none => none
  | some b =>
    if b < 128 || q == .byte || q == .bytes then some 3
    else if q == .character then none
    else
      let n := continuationCount b
      match escapedBytes? n (s.drop 2) with
      | some bs => if isEncoding (b :: bs) then some (3 + 4 * n) else none
      | none => none

/-- The length of an escape from the letter `u` on: one to six hexadecimal digits in braces, which
are the code point of a character. -/
def codePointEscapeLength? (q : Quotation) : List Char → Option Nat
  | '\x7b' :: s =>
    let digits := s.takeWhile isHexDigit
    if q != .byte && !digits.isEmpty && digits.length ≤ 6 && (ofDigits 16 digits).isValidChar
        && (s.dropWhile isHexDigit).head? == some '\x7d' then some (digits.length + 3)
    else none
  | _ => none

/-- The length of an escape behind its backslash. -/
def escapeLength? (q : Quotation) : List Char → Option Nat
  | 'x' :: s => byteEscapeLength? q s
  | 'u' :: s => codePointEscapeLength? q s
  | c :: _ => if "'\"\\nrt0".toList.contains c then some 1 else none
  | [] => none

/-! ## Literals -/

/-- The length of one quoted character or byte behind its opening quote. A byte that is not escaped
is one of the first 128 characters. -/
def singleLength? (q : Quotation) : List Char → Option Nat
  | '\\' :: s =>
    match escapeLength? q s with
    | some n => if s[n]? = some '\'' then some (n + 2) else none
    | none => none
  | c :: '\'' :: _ => if q == .byte && 128 ≤ c.toNat then none else some 2
  | _ => none

/-- The length of a quoted text behind its opening quote. -/
def textLength? (q : Quotation) : List Char → Option Nat
  | [] => none
  | c :: s =>
    if c == '"' then some 1
    else if c == '\\' then
      match escapeLength? q s with
      | some n => (· + (n + 1)) <$> textLength? q (s.drop n)
      | none => none
    else (· + 1) <$> textLength? q s
termination_by s => s.length
decreasing_by
  · rw [List.length_drop]
    exact Nat.lt_succ_of_le (Nat.sub_le ..)
  · exact Nat.lt_succ_self _

/-- The length of a raw text behind its opening quote, given how many number signs close it. -/
def rawLength? (signs : Nat) : List Char → Option Nat
  | [] => none
  | c :: s =>
    if c == '"' && s.take signs == List.replicate signs '#' then some (signs + 1)
    else (· + 1) <$> rawLength? signs s

end Record

end DeskCalculator
