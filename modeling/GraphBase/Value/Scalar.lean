import GraphBase.Json.Basic
import GraphBase.Text.Find
import GraphBase.Value.Cell

/-!
# Property values

A property holds one of the scalars of JSON.  A scalar has four lives: it is read
from a literal on the command line, from a JSON text, displayed in a table, and
compared with what a table holds.

## Literals

`parseLiteral` reads `null`, `true` and `false` as themselves, an optionally signed
digit string in the range of 64-bit integers as an integer, and any other decimal
number, infinity or NaN as a floating point number.  Whatever is none of these is a
text, kept as it is.
-/

namespace GraphBase

open GraphBase.Number

/-- A property value. -/
inductive Scalar where
  | null
  | bool (b : Bool)
  | int (i : Int64)
  | float (x : Binary64)
  | text (s : String)
  deriving DecidableEq, Inhabited

namespace Scalar

/-- Null and the empty text count as empty. -/
def isEmpty : Scalar → Bool
  | null => true
  | text s => s.isEmpty
  | _ => false

/-- The text for people. -/
def display : Scalar → String
  | null => "null"
  | bool b => if b then "true" else "false"
  | int i => integerText i.toInt
  | float x => x.display
  | text s => s

/-- The cell that a scalar is compared with; truth values are the integers 0 and 1. -/
def toCell : Scalar → Cell
  | null => .null
  | bool b => .integer (if b then 1 else 0)
  | int i => .integer i
  | float x => .real x
  | text s => .text s

/-! ## Integers -/

/-- Whether an integer fits 64 bits with a sign. -/
def fitsInt64 (i : Int) : Bool := -0x8000000000000000 ≤ i && i < 0x8000000000000000

/-- Splits off one sign character; `true` stands for minus. -/
def takeSign : List Char → Bool × List Char
  | '-' :: rest => (true, rest)
  | '+' :: rest => (false, rest)
  | cs => (false, cs)

/-- An integer literal: an optional sign and digits, within 64 bits. -/
def readInt? (cs : List Char) : Option Int64 :=
  let (negative, ds) := takeSign cs
  if ds.isEmpty || !ds.all isDigit then none
  else
    let i : Int := if negative then -(ofDigits ds : Int) else ofDigits ds
    if fitsInt64 i then some (Int64.ofInt i) else none

/-! ## Floating point numbers -/

/-- An optional exponent: `e`, a sign at will, and at least one digit. -/
def readExponent? : List Char → Option Int
  | [] => some 0
  | c :: rest =>
    if c = 'e' ∨ c = 'E' then
      let (negative, ds) := takeSign rest
      if ds.isEmpty || !ds.all isDigit then none
      else some (if negative then -(ofDigits ds : Int) else ofDigits ds)
    else none

/-- The digits behind a point, if there is one, and what follows. -/
def takeFraction : List Char → List Char × List Char
  | '.' :: rest => (rest.takeWhile isDigit, rest.dropWhile isDigit)
  | rest => ([], rest)

/-- A decimal number without a sign: digits with a point at will, at least one digit on
either side of it, and an exponent at will. -/
def readDecimal? (cs : List Char) : Option Decimal :=
  let whole := cs.takeWhile isDigit
  let (fraction, rest) := takeFraction (cs.dropWhile isDigit)
  if whole.isEmpty && fraction.isEmpty then none
  else
    (readExponent? rest).map fun e => ⟨ofDigits (whole ++ fraction), e - fraction.length⟩

/-- A floating point literal. -/
def readFloat? (cs : List Char) : Option Binary64 :=
  let (negative, body) := takeSign cs
  let word := String.ofList (body.map Text.lowerAscii)
  if word = "inf" ∨ word = "infinity" then some (.infinity negative)
  else if word = "nan" then some (.quietNaN negative)
  else (readDecimal? body).map fun d => d.toBinary64 negative

/-- Reads a literal; what is no other scalar is a text. -/
def parseLiteral (raw : String) : Scalar :=
  if raw = "null" then null
  else if raw = "true" then bool true
  else if raw = "false" then bool false
  else
    match readInt? raw.toList with
    | some i => int i
    | none =>
      match readFloat? raw.toList with
      | some x => float x
      | none => text raw

/-! ## JSON -/

/-- The JSON value of a scalar.  A number that JSON cannot write becomes null. -/
def toJson : Scalar → Json
  | null => .null
  | bool b => .bool b
  | int i => .ofInt i.toInt
  | float x =>
    match Json.Numeral.ofBinary64? x with
    | some n => .number n
    | none => .null
  | text s => .string s

/-- The scalar that a JSON number writes: an integer if it is spelled as one and fits 64
bits, otherwise a floating point number. -/
def ofNumeral? (n : Json.Numeral) : Option Scalar :=
  match n.toInt? with
  | some i => if fitsInt64 i then some (int (Int64.ofInt i)) else n.toBinary64?.map float
  | none => n.toBinary64?.map float

/-- Reads a JSON value; an array or object is no scalar. -/
def ofJson? : Json → Option Scalar
  | .null => some null
  | .bool b => some (bool b)
  | .number n => ofNumeral? n
  | .string s => some (text s)
  | _ => none

end Scalar

end GraphBase
