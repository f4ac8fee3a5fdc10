import GraphBase.Error
import GraphBase.Json.Escaped
import GraphBase.Json.Text
import GraphBase.Text.Find
import GraphBase.Value.Scalar

/-!
# Lenient JSON

A database that looks into a stored text reads more than JSON.  It also takes names without
quotes, strings between single quotes, commas at the end of a list, comments, numbers in
hexadecimal digits or with nothing on one side of the point, infinities, and words that stand
for no number at all.  `Lenient` is a value of such a text.

## What is kept

Numbers and strings are kept as they are written.  Written out again, they look the same as
far as they are JSON; whatever is not is replaced by what comes closest (`toChars`).

## What comes out

`toCell?` is the cell that a value is handed out as.  Truth values are the integers 1 and 0,
integers that fit 64 bits are themselves, other numbers have double precision, and an array
or an object is its text.  A number of more than sixteen hexadecimal digits fails.
-/

namespace GraphBase.Json

open GraphBase.Number

/-- A number as it is written. -/
inductive LenientNumber where
  | hexadecimal (negative : Bool) (digits : List Char)
  /-- The digits before and behind the point, either of which may be missing, and an exponent
  from its letter on. -/
  | decimal (negative : Bool) (whole : List Char) (fraction : Option (List Char))
      (exponent : List Char)
  deriving DecidableEq, Repr, Inhabited

/-- A value of a lenient text.  Strings and names keep their escapes. -/
inductive Lenient where
  | null
  | bool (b : Bool)
  | number (n : LenientNumber)
  | string (content : List Char)
  | array (items : List Lenient)
  | object (members : List (List Char × Lenient))
  deriving Inhabited, Repr

namespace LenientNumber

/-- An infinity, which is written as a number beyond all others. -/
def infinity (negative : Bool) : LenientNumber :=
  .decimal negative ['9'] none ['e', '9', '9', '9']

/-- The number that hexadecimal digits write. -/
def ofHexDigits (digits : List Char) : Nat :=
  digits.foldl (fun n c => n * 16 + (Text.hexValue? c).getD 0) 0

/-- The most digits of a word, leading zeros not counted. -/
def mostHexDigits : Nat := 16

/-- A minus sign, if one is due. -/
def signChars (negative : Bool) : List Char := if negative then ['-'] else []

/-- Digits, or a zero where there are none. -/
def digitsOrZero (digits : List Char) : List Char := if digits.isEmpty then ['0'] else digits

/-- The number as JSON. -/
def toChars : LenientNumber → List Char
  | hexadecimal negative digits =>
    signChars negative ++
      if mostHexDigits < (digits.dropWhile (· == '0')).length then "9.0e999".toList
      else toDigits (ofHexDigits digits)
  | decimal negative whole fraction exponent =>
    let behind := match fraction with
      | some digits => '.' :: digitsOrZero digits
      | none => []
    signChars negative ++ digitsOrZero whole ++ behind ++ exponent

/-- The digits of an exponent, and whether it is negative. -/
def exponentParts (exponent : List Char) : Bool × List Char :=
  Scalar.takeSign (exponent.drop 1)

/-- The number in double precision. -/
def toBinary64 (negative : Bool) (whole fraction exponent : List Char) : Binary64 :=
  let (isSmall, digits) := exponentParts exponent
  (Gathered.ofParts whole fraction isSmall digits).toBinary64 negative

/-- The cell of a number. -/
def toCell? : LenientNumber → Option Cell
  | hexadecimal negative digits =>
    if mostHexDigits < (digits.dropWhile (· == '0')).length then none
    else
      let n : Int := ofHexDigits digits
      some (.integer (Int64.ofInt (if negative then -n else n)))
  | decimal negative whole none [] =>
    let n : Int := ofDigits whole
    let i := if negative then -n else n
    if Scalar.fitsInt64 i then some (.integer (Int64.ofInt i))
    else some (.real (toBinary64 negative whole [] []))
  | decimal negative whole fraction exponent =>
    some (.real (toBinary64 negative whole (fraction.getD []) exponent))

end LenientNumber

namespace Lenient

/-! ## Writing -/

/-- The content of a string as JSON.  Escapes that JSON does not have are replaced, that of a
vertical tab by a tab, as are quotes and control characters; a line break behind a backslash is
dropped. -/
def contentChars : List Char → List Char
  | '\\' :: '\'' :: rest => '\'' :: contentChars rest
  | '\\' :: 'v' :: rest => "\\u0009".toList ++ contentChars rest
  | '\\' :: 'x' :: a :: b :: rest => "\\u00".toList ++ a :: b :: contentChars rest
  | '\\' :: '0' :: rest => "\\u0000".toList ++ contentChars rest
  | '\\' :: '\r' :: '\n' :: rest => contentChars rest
  | '\\' :: '\r' :: rest => contentChars rest
  | '\\' :: '\n' :: rest => contentChars rest
  | '\\' :: '\u2028' :: rest => contentChars rest
  | '\\' :: '\u2029' :: rest => contentChars rest
  | '\\' :: c :: rest => '\\' :: c :: contentChars rest
  | c :: rest => (if c = '\\' then [c] else escapeChar c) ++ contentChars rest
  | [] => []

/-- A string between quotes. -/
def quotedChars (content : List Char) : List Char := '"' :: contentChars content ++ ['"']

mutual

/-- A value without blanks. -/
def toChars : Lenient → List Char
  | null => ['n', 'u', 'l', 'l']
  | bool true => ['t', 'r', 'u', 'e']
  | bool false => ['f', 'a', 'l', 's', 'e']
  | number n => n.toChars
  | string content => quotedChars content
  | array items => '[' :: itemChars items
  | object members => '\x7b' :: memberChars members

/-- The items of an array, its closing bracket included. -/
def itemChars : List Lenient → List Char
  | [] => [']']
  | [x] => x.toChars ++ [']']
  | x :: y :: rest => x.toChars ++ ',' :: itemChars (y :: rest)

/-- The members of an object, its closing brace included. -/
def memberChars : List (List Char × Lenient) → List Char
  | [] => ['\x7d']
  | [(k, v)] => quotedChars k ++ ':' :: v.toChars ++ ['\x7d']
  | (k, v) :: m :: rest => quotedChars k ++ ':' :: v.toChars ++ ',' :: memberChars (m :: rest)

end

/-! ## Cells -/

/-- The characters that the content of a string stands for. -/
def codes (content : List Char) : List Escaped.Code :=
  Escaped.codes (String.ofList content).toUTF8.toList

/-- The cell of a value, `none` for a number that has none.  A string with half of a surrogate
pair equals no text, and comes out empty. -/
def toCell? : Lenient → Option Cell
  | null => some .null
  | bool b => some (.integer (if b then 1 else 0))
  | number n => n.toCell?
  | string content =>
    match Escaped.textOf? (codes content) with
    | some s => some (.text s)
    | none => some .null
  | j => some (.text (String.ofList j.toChars))

end Lenient

end GraphBase.Json
