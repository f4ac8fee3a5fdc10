import GraphBase.Number.Extended

/-!
# Decimal texts

A decimal text is a sign at will, digits, a point at will with digits behind it, and an
exponent at will.  One of the two groups of digits may be missing, but not both; an exponent
has at least one digit.  `DecimalText` keeps the parts, so that a text can be told to be an
integer before it is known what becomes of it.

A database reads such a text in extended precision (`toBinary64`).
-/

namespace GraphBase.Number

/-- The parts of a decimal text. -/
structure DecimalText where
  negative : Bool
  whole : List Char
  fraction : Option (List Char)
  /-- Whether the exponent is negative, and its digits. -/
  exponent : Option (Bool × List Char)
  deriving DecidableEq, Repr, Inhabited

namespace DecimalText

/-- Splits off one sign character; `true` stands for minus. -/
def takeSign : List Char → Bool × List Char
  | '-' :: rest => (true, rest)
  | '+' :: rest => (false, rest)
  | cs => (false, cs)

/-- Reads an exponent, if there is one; nothing may follow it. -/
def readExponent? : List Char → Option (Option (Bool × List Char))
  | [] => some none
  | e :: rest =>
    let (negative, digits) := takeSign rest
    if (e = 'e' ∨ e = 'E') ∧ !digits.isEmpty ∧ digits.all isDigit then
      some (some (negative, digits))
    else none

/-- Reads a text that is a decimal text as a whole. -/
def read? (cs : List Char) : Option DecimalText :=
  let (negative, body) := takeSign cs
  let whole := body.takeWhile isDigit
  let (fraction, rest) := match body.dropWhile isDigit with
    | '.' :: r => (some (r.takeWhile isDigit), r.dropWhile isDigit)
    | r => (none, r)
  if whole.isEmpty && (fraction.getD []).isEmpty then none
  else (readExponent? rest).map fun exponent => { negative, whole, fraction, exponent }

/-- Reads as much of the beginning of a text as makes a decimal text; if that is nothing, the
decimal text has no digits. -/
def readStart (cs : List Char) : DecimalText :=
  let (negative, body) := takeSign cs
  let whole := body.takeWhile isDigit
  let (fraction, rest) := match body.dropWhile isDigit with
    | '.' :: r => (some (r.takeWhile isDigit), r.dropWhile isDigit)
    | r => (none, r)
  let (isSmall, digits) := takeSign (rest.drop 1)
  let digits := digits.takeWhile isDigit
  let hasExponent := rest.head?.any (fun e => e == 'e' || e == 'E') && !digits.isEmpty
  { negative, whole, fraction, exponent := if hasExponent then some (isSmall, digits) else none }

/-- Whether a text is spelled as an integer. -/
def isInteger (t : DecimalText) : Bool := t.fraction.isNone && t.exponent.isNone

/-- The integer that the digits before the point write. -/
def toInt (t : DecimalText) : Int :=
  if t.negative then -(ofDigits t.whole : Int) else ofDigits t.whole

/-- The number in double precision that a database reads. -/
def toBinary64 (t : DecimalText) : Binary64 :=
  let (isSmall, digits) := t.exponent.getD (false, [])
  (Gathered.ofParts t.whole (t.fraction.getD []) isSmall digits).toBinary64 t.negative

end DecimalText

end GraphBase.Number
