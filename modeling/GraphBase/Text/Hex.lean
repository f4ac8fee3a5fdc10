/-!
# Hexadecimal digits

Escapes write characters by number, in hexadecimal.  Digits are written in lower case and
read in either case.
-/

namespace GraphBase.Text

/-- A number in lower-case hexadecimal. -/
def hexDigits (n : Nat) : List Char := Nat.toDigits 16 n

/-- A number below 16 as one digit. -/
def hexDigit (n : Nat) : Char := (hexDigits n).headD '0'

/-- The value of a digit. -/
def hexValue? (c : Char) : Option Nat :=
  if '0' ≤ c ∧ c ≤ '9' then some (c.toNat - '0'.toNat)
  else if 'a' ≤ c ∧ c ≤ 'f' then some (c.toNat - 'a'.toNat + 10)
  else if 'A' ≤ c ∧ c ≤ 'F' then some (c.toNat - 'A'.toNat + 10)
  else none

/-- A byte as two digits. -/
def byteDigits (b : UInt8) : List Char := [hexDigit (b.toNat / 16), hexDigit (b.toNat % 16)]

/-- The bytes of an even number of digits. -/
def readBytes? : List Char → Option (List UInt8)
  | [] => some []
  | a :: b :: rest =>
    match hexValue? a, hexValue? b, readBytes? rest with
    | some a, some b, some bytes => some ((a * 16 + b).toUInt8 :: bytes)
    | _, _, _ => none
  | _ => none

end GraphBase.Text
