import GraphBase.Number.DecimalText
import GraphBase.Text.Find
import GraphBase.Text.Hex
import GraphBase.Value.Scalar

/-!
# Tokens of a statement

A statement is a text of words, names, literals and marks, with blanks and remarks between
them.  A remark goes from `--` to the end of the line or stands between `/*` and `*/`; one that is
not ended goes to the end of the text.  The statement itself goes to the first semicolon, and
what follows is not looked at.

## Names and literals

Words are read without case.  A name may stand between double quotes, brackets or backticks, and
a text stands between single quotes; a quote inside is written twice.  Digits may have single
underscores between them.  Digits behind `0x` are hexadecimal and make up a word of 64 bits, so
that the largest ones are negative numbers.

An integer that does not fit into 64 bits is read as a floating point number.

## Places

A question mark is a place for a value that is handed over with the statement; a number may
follow it, and a place may have a name instead.  `fill` puts values into the places in their
order, whatever they are called.
-/

namespace GraphBase

/-- A piece of a statement. -/
inductive Token where
  /-- A bare word, without case. -/
  | word (s : String)
  /-- A name between brackets or backticks. -/
  | name (s : String)
  /-- A name between double quotes. -/
  | quoted (s : String)
  | text (s : String)
  | blob (bytes : List UInt8)
  | number (t : Number.DecimalText)
  | hexadecimal (n : Nat)
  /-- A place, and the value in it. -/
  | value (c : Option Cell)
  | mark (s : String)
  deriving DecidableEq

namespace Token

/-- The words that cannot be names. -/
def reservedWords : List String :=
  ["add", "all", "alter", "and", "as", "autoincrement", "between", "case", "check", "collate",
    "commit", "constraint", "create", "default", "deferrable", "delete", "distinct", "drop",
    "else", "escape", "except", "exists", "foreign", "from", "group", "having", "in", "index",
    "insert", "intersect", "into", "is", "isnull", "join", "limit", "not", "nothing",
    "notnull", "null", "on", "or", "order", "primary", "references", "returning", "select",
    "set", "table", "then", "to", "transaction", "union", "unique", "update", "using",
    "values", "when", "where"]

/-! ## Characters -/

def isSpace (c : Char) : Bool :=
  c == ' ' || c == '\t' || c == '\n' || c == '\r' || c == '\x0c' || c == '\uFEFF'

/-- Whether a word may begin with a character. -/
def isWordStart (c : Char) : Bool :=
  ('a' ≤ c && c ≤ 'z') || ('A' ≤ c && c ≤ 'Z') || c == '_' || 0x80 ≤ c.toNat

def isWordChar (c : Char) : Bool := isWordStart c || Number.isDigit c || c == '$'

def isHexDigit (c : Char) : Bool := (Text.hexValue? c).isSome

/-! ## Remarks and quotes -/

/-- What follows the end of a remark. -/
def dropRemark : List Char → List Char
  | '*' :: '/' :: rest => rest
  | _ :: rest => dropRemark rest
  | [] => []

/-- Reads up to a closing quote; a quote that is written twice stands for one. -/
def readQuoted? (quote : Char) : List Char → Option (List Char × List Char)
  | [] => none
  | c :: d :: rest =>
    if c = quote then
      if d = quote then (readQuoted? quote rest).map fun (cs, r) => (quote :: cs, r)
      else some ([], d :: rest)
    else (readQuoted? quote (d :: rest)).map fun (cs, r) => (c :: cs, r)
  | [c] => if c = quote then some ([], []) else none

/-- Reads what stands between quotes that begin with a character. -/
def readName? (opening : Char) (cs : List Char) : Option (Token × List Char) :=
  if opening = '\'' then (readQuoted? opening cs).map fun (s, r) => (text (String.ofList s), r)
  else if opening = '"' then
    (readQuoted? opening cs).map fun (s, r) => (quoted (String.ofList s), r)
  else if opening = '\x60' then
    (readQuoted? opening cs).map fun (s, r) => (name (String.ofList s), r)
  else if opening = '[' then
    (Text.splitFirst? [']'] cs).map fun (s, r) => (name (String.ofList s), r)
  else none

/-- Reads bytes up to the closing quote. -/
def readBlob? (cs : List Char) : Option (Token × List Char) :=
  let digits := cs.takeWhile isHexDigit
  match Text.readBytes? digits, cs.drop digits.length with
  | some bytes, '\'' :: rest => some (blob bytes, rest)
  | _, _ => none

/-! ## Numbers -/

/-- Splits off digits with underscores among them. -/
def takeDigits (isDigit : Char → Bool) (cs : List Char) : List Char × List Char :=
  (cs.takeWhile fun c => isDigit c || c == '_', cs.dropWhile fun c => isDigit c || c == '_')

/-- The digits without underscores, each of which has a digit on both sides. -/
def joinDigits? (cs : List Char) : Option (List Char) :=
  if cs.isEmpty then some []
  else
    let groups := Text.splitAll '_' cs
    if groups.any List.isEmpty then none else some groups.flatten

/-- The digits behind the point, and the rest. -/
def takeFraction : List Char → Option (List Char) × List Char
  | '.' :: rest =>
    let (digits, rest) := takeDigits Number.isDigit rest
    (some digits, rest)
  | cs => (none, cs)

/-- The sign and the digits of an exponent, and the rest. -/
def takeExponent (cs : List Char) : Option (Bool × List Char) × List Char :=
  match cs with
  | e :: rest =>
    let (negative, digits) := Number.DecimalText.takeSign rest
    if (e = 'e' ∨ e = 'E') ∧ digits.head?.any Number.isDigit then
      let (digits, rest) := takeDigits Number.isDigit digits
      (some (negative, digits), rest)
    else (none, cs)
  | [] => (none, [])

/-- Reads a decimal number. -/
def readDecimal? (cs : List Char) : Option (Token × List Char) :=
  let (whole, rest) := takeDigits Number.isDigit cs
  let (fraction, rest) := takeFraction rest
  let (exponent, rest) := takeExponent rest
  match joinDigits? whole, joinDigits? (fraction.getD []),
      joinDigits? ((exponent.map (·.2)).getD []) with
  | some whole, some digits, some power =>
    let fraction := fraction.map fun _ => digits
    let exponent := exponent.map fun (negative, _) => (negative, power)
    some (number { negative := false, whole, fraction, exponent }, rest)
  | _, _, _ => none

/-- The number that hexadecimal digits write. -/
def ofHexDigits (cs : List Char) : Nat :=
  cs.foldl (fun n c => n * 16 + (Text.hexValue? c).getD 0) 0

/-- Reads a number, decimal or hexadecimal; no word may follow it at once. -/
def readNumber? (cs : List Char) : Option (Token × List Char) :=
  let read := match cs with
    | '0' :: x :: d :: rest =>
      if (x = 'x' ∨ x = 'X') ∧ isHexDigit d then
        let (digits, rest) := takeDigits isHexDigit (d :: rest)
        (joinDigits? digits).map fun digits => (hexadecimal (ofHexDigits digits), rest)
      else readDecimal? cs
    | cs => readDecimal? cs
  read.filter fun (_, rest) => !rest.head?.any isWordChar

/-! ## Splitting -/

/-- The marks of two characters. -/
def longMarks : List String := ["==", "<>", "!=", "<=", ">=", "<<", ">>", "||", "->"]

/-- The marks of one character. -/
def shortMarks : List Char :=
  ['+', '-', '*', '/', '%', '&', '|', '~', '(', ')', ',', '.', '=', '<', '>']

/-- Reads a mark, of two characters if that is possible. -/
def readMark? : List Char → Option (Token × List Char)
  | c :: d :: rest =>
    if longMarks.contains (String.ofList [c, d]) then some (mark (String.ofList [c, d]), rest)
    else if shortMarks.contains c then some (mark (String.ofList [c]), d :: rest)
    else none
  | [c] => if shortMarks.contains c then some (mark (String.ofList [c]), []) else none
  | [] => none

/-- Reads a word, or bytes behind the word `x`. -/
def readWord? (cs : List Char) : Option (Token × List Char) :=
  match Text.foldCase (String.ofList (cs.takeWhile isWordChar)), cs.dropWhile isWordChar with
  | "x", '\'' :: rest => readBlob? rest
  | s, rest => some (word s, rest)

/-- The signs before the name of a place. -/
def placeSigns : List Char := [':', '@', '$']

/-- Reads the token that a text begins with. -/
def read? : List Char → Option (Token × List Char)
  | [] => none
  | c :: rest =>
    if Number.isDigit c || (c == '.' && rest.head?.any Number.isDigit) then
      readNumber? (c :: rest)
    else if isWordStart c then readWord? (c :: rest)
    else if c = '?' then some (value none, rest.dropWhile Number.isDigit)
    else if placeSigns.contains c ∧ rest.head?.any isWordChar then
      some (value none, rest.dropWhile isWordChar)
    else (readName? c rest).or (readMark? (c :: rest))

/-- Splits a statement into tokens; every step takes at least one character. -/
def split? : Nat → List Char → Option (List Token)
  | 0, _ => none
  | _ + 1, [] => some []
  | fuel + 1, '-' :: '-' :: rest => split? fuel (rest.dropWhile (· != '\n'))
  | fuel + 1, '/' :: '*' :: c :: rest => split? fuel (dropRemark (c :: rest))
  | fuel + 1, c :: rest =>
    if isSpace c then split? fuel rest
    else if c = ';' then some []
    else
      match read? (c :: rest) with
      | some (t, rest) => (split? fuel rest).map (t :: ·)
      | none => none

/-- The tokens of a statement, which ends before a NUL at the latest. -/
def ofText? (s : String) : Option (List Token) :=
  let cs := s.toList.takeWhile (· != '\x00')
  split? (cs.length + 1) cs

/-! ## Places and values -/

/-- The places in a statement. -/
def places (ts : List Token) : Nat := ts.countP fun | value _ => true | _ => false

/-- Puts values into the places, as far as they go. -/
def fill : List Cell → List Token → List Token
  | c :: cells, value _ :: ts => value (some c) :: fill cells ts
  | cells, t :: ts => t :: fill cells ts
  | _, [] => []

/-! ## Literals -/

/-- The number that a sign and a token write. -/
def signedCell? (negative : Bool) : Token → Option Cell
  | number t =>
    let t := { t with negative }
    if t.isInteger && Scalar.fitsInt64 t.toInt then some (.integer (Int64.ofInt t.toInt))
    else some (.real t.toBinary64)
  | hexadecimal n =>
    let i := Int64.ofNat n
    if n ≥ 0x10000000000000000 then none
    else if negative then if i = Int64.minValue then none else some (.integer (-i))
    else some (.integer i)
  | _ => none

/-- Reads a literal. -/
def literal? : List Token → Option (Cell × List Token)
  | word "null" :: rest => some (.null, rest)
  | word "true" :: rest => some (.integer 1, rest)
  | word "false" :: rest => some (.integer 0, rest)
  | text s :: rest => some (.text s, rest)
  | blob bytes :: rest => some (.blob bytes, rest)
  | mark "+" :: t :: rest => (signedCell? false t).map fun c => (c, rest)
  | mark "-" :: t :: rest => (signedCell? true t).map fun c => (c, rest)
  | t :: rest => (signedCell? false t).map fun c => (c, rest)
  | [] => none

/-- What a token names, if anything: a word that is not reserved, or a name between quotes. -/
def identifier? : Token → Option String
  | word s => if reservedWords.contains s then none else some s
  | name s | quoted s => some s
  | _ => none

/-- Reads items with commas between them. -/
def list? {α : Type} (read : List Token → Option (α × List Token)) :
    Nat → List Token → Option (List α × List Token)
  | 0, _ => none
  | fuel + 1, ts =>
    match read ts with
    | some (a, mark "," :: rest) => (list? read fuel rest).map fun (items, r) => (a :: items, r)
    | some (a, rest) => some ([a], rest)
    | none => none

end Token

end GraphBase
