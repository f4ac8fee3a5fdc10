import GraphBase.Text.Hex

/-!
# Escaped text

A string of a JSON text, and a label of a path, stand for other characters than those they
are written with: a backslash begins an escape.  `codes` gives the numbers of the characters
that bytes in UTF-8 stand for.

## Escapes

Besides the escapes of JSON there are `\'`, `\v`, `\0`, two digits behind `\x`, and a line
break behind a backslash, which stands for nothing.  Digits are taken as they come: what is
no digit counts by its last four bits.  Half of a surrogate pair stands for itself.

An escape that means nothing stands for `noCharacter`.  It takes the byte behind the backslash
along, or everything up to the end where that is not enough.
-/

namespace GraphBase.Json.Escaped

open GraphBase.Text (hexValue?)

/-- A backslash. -/
def backslash : UInt8 := 0x5C

/-- What an escape without a meaning stands for.  The number is one that no text uses. -/
def noCharacter : Nat := 0x99999

/-- What a byte counts as a hexadecimal digit. -/
def digitOf (b : UInt8) : Nat :=
  (b.toNat + if b.toNat / 64 % 2 = 1 then 9 else 0) % 16

/-- What four digits count. -/
def fourDigits (a b c d : UInt8) : Nat :=
  ((digitOf a * 16 + digitOf b) * 16 + digitOf c) * 16 + digitOf d

/-- Whether a byte goes on with a character. -/
def isContinuation (b : UInt8) : Bool := 0x80 ≤ b && b < 0xC0

/-- The bits of the first byte of a character. -/
def leadBits (b : UInt8) : Nat :=
  let n := b.toNat
  if n < 0xE0 then n - 0xC0 else if n < 0xF0 then n - 0xE0 else if n < 0xF8 then n - 0xF0
  else if n < 0xFC then n - 0xF8 else if n < 0xFE then n - 0xFC else 0

/-- The first character of some bytes, and the bytes after it.  A byte in the middle of a
character counts as a character. -/
def takeCode : List UInt8 → Nat × List UInt8
  | [] => (0, [])
  | b :: rest =>
    if b < 0xC0 then (b.toNat, rest)
    else
      let more := (rest.take 3).takeWhile isContinuation
      (more.foldl (fun n c => n * 64 + c.toNat % 64) (leadBits b), rest.drop more.length)

/-- Skips line breaks behind backslashes. -/
def skipBreaks : List UInt8 → List UInt8
  | 0x5C :: 0x0A :: rest => skipBreaks rest
  | 0x5C :: 0x0D :: 0x0A :: rest => skipBreaks rest
  | 0x5C :: 0x0D :: rest => skipBreaks rest
  | 0x5C :: 0xE2 :: 0x80 :: 0xA8 :: rest => skipBreaks rest
  | 0x5C :: 0xE2 :: 0x80 :: 0xA9 :: rest => skipBreaks rest
  | bytes => bytes

/-- The bytes that stand for one character behind a backslash. -/
def shortEscapes : List (Char × Nat) :=
  [('b', 0x08), ('f', 0x0C), ('n', 0x0A), ('r', 0x0D), ('t', 0x09), ('v', 0x0B), ('0', 0),
    ('\'', 0x27), ('"', 0x22), ('/', 0x2F), ('\\', 0x5C)]

/-- The second half of a surrogate pair at the front of some bytes, and the bytes after it. -/
def secondHalf? : List UInt8 → Option (Nat × List UInt8)
  | 0x5C :: 0x75 :: a :: b :: c :: d :: rest =>
    let low := fourDigits a b c d
    if low / 0x400 = 0x37 then some (low % 0x400, rest) else none
  | _ => none

/-- The character of an escape, given what follows the backslash, and the bytes after it. -/
def takeEscape : List UInt8 → Nat × List UInt8
  | 0x75 :: a :: b :: c :: d :: rest =>
    let n := fourDigits a b c d
    if n / 0x400 = 0x36 then
      match secondHalf? rest with
      | some (low, rest) => (n % 0x400 * 0x400 + low + 0x10000, rest)
      | none => (n, rest)
    else (n, rest)
  | 0x78 :: a :: b :: rest => (digitOf a * 16 + digitOf b, rest)
  | b :: rest =>
    match shortEscapes.find? fun e => e.1.toNat == b.toNat with
    | some (_, n) => (n, rest)
    | none =>
      if [0x75, 0x78, 0xE2].contains b then (noCharacter, []) else (noCharacter, rest)
  | [] => (noCharacter, [])

/-- A character, and whether an escape had to do with it. -/
structure Code where
  value : Nat
  isEscaped : Bool
  deriving DecidableEq, Repr

/-- The character at the front of some bytes, which begin with a backslash.  Line breaks at the
end stand for the character zero. -/
def takeBackslash (bytes : List UInt8) : Nat × List UInt8 :=
  let after := skipBreaks bytes
  if after.length = bytes.length then takeEscape (bytes.drop 1)
  else
    match after with
    | 0x5C :: rest => takeEscape rest
    | rest => takeCode rest

/-- The characters of some bytes; `fuel` is at least their number. -/
def codesOf (fuel : Nat) (bytes : List UInt8) : List Code :=
  match fuel, bytes with
  | 0, _ => []
  | _ + 1, [] => []
  | fuel + 1, b :: rest =>
    let (n, after) :=
      if b = backslash then takeBackslash (b :: rest) else takeCode (b :: rest)
    ⟨n, b == backslash⟩ :: codesOf fuel after

/-- The characters of some bytes. -/
def codes (bytes : List UInt8) : List Code := codesOf bytes.length bytes

/-- The characters of some bytes in which a backslash is a character like others. -/
def plainCodes (fuel : Nat) (bytes : List UInt8) : List Nat :=
  match fuel, bytes with
  | 0, _ => []
  | _ + 1, [] => []
  | fuel + 1, bytes => (takeCode bytes).1 :: plainCodes fuel (takeCode bytes).2

/-- The text that characters make up, `none` if half of a surrogate pair is among them.  An
escape without a meaning leaves nothing. -/
def textOf? (codes : List Code) : Option String :=
  let values := (codes.filter fun c => !(c.isEscaped && c.value == noCharacter)).map (·.value)
  if values.all fun n => n.isValidChar then some (String.ofList (values.map Char.ofNat)) else none

end GraphBase.Json.Escaped
