import GraphBase.Json.Lenient

/-!
# Reading lenient JSON

`Lenient.parse?` reads a text that holds one value and nothing else.  The text ends at the
first character zero.  Arrays and objects may be nested a thousand deep.

## Blanks

Blanks are those of JSON, the vertical tab, the form feed, the spaces of other scripts, the
mark of byte order, and comments: from `//` to the end of the line, and from `/*` to `*/`.

## Names

A name is a string or a word.  A word begins with a letter, `$`, `_`, or any character beyond
ASCII, goes on with those and with digits, and may hold escapes of four hexadecimal digits.  A
word that is a value already, such as `true`, is no name.
-/

namespace GraphBase.Json.Lenient

open GraphBase.Text (hexValue?)

/-! ## Blanks -/

/-- The blanks of a lenient text. -/
def isBlank (c : Char) : Bool :=
  let n := c.toNat
  (9 ≤ n && n ≤ 13) || n == 0x20 || n == 0xA0 || n == 0x1680 || (0x2000 ≤ n && n ≤ 0x200A) ||
    n == 0x2028 || n == 0x2029 || n == 0x202F || n == 0x205F || n == 0x3000 || n == 0xFEFF

/-- Where a line of comment ends. -/
def isLineEnd (c : Char) : Bool := c == '\n' || c == '\r' || c == '\u2028' || c == '\u2029'

/-- Skips blanks and comments; a comment without an end is none. -/
def skipFrom : Nat → List Char → List Char
  | 0, cs => cs
  | fuel + 1, cs =>
    match cs.dropWhile isBlank with
    | '/' :: '/' :: rest => skipFrom fuel ((rest.dropWhile fun c => !isLineEnd c).drop 1)
    | '/' :: '*' :: rest =>
      match Text.splitFirst? ['*', '/'] rest with
      | some (_, rest) => skipFrom fuel rest
      | none => '/' :: '*' :: rest
    | rest => rest

/-- Skips blanks and comments. -/
def skip (cs : List Char) : List Char := skipFrom (cs.length + 1) cs

/-! ## Words -/

def isLetter (c : Char) : Bool := ('a' ≤ c && c ≤ 'z') || ('A' ≤ c && c ≤ 'Z')

/-- Whether a word may begin with a character. -/
def isWordStart (c : Char) : Bool := isLetter c || c == '$' || c == '_' || 0x80 ≤ c.toNat

/-- Whether a word may go on with a character. -/
def isWordPart (c : Char) : Bool := (isWordStart c || Number.isDigit c) && !isBlank c

/-- Whether a letter or digit goes on with a value that is a word. -/
def goesOn : List Char → Bool
  | c :: _ => isLetter c || Number.isDigit c
  | [] => false

/-- The words that are values, in this spelling. -/
def exactWords : List (String × Lenient) :=
  [("true", .bool true), ("false", .bool false), ("null", .null)]

/-- The words that are values, whatever the case of their letters. -/
def looseWords : List (String × Lenient) :=
  [("inf", .number (.infinity false)), ("infinity", .number (.infinity false)),
    ("nan", .null), ("qnan", .null), ("snan", .null)]

/-- What follows a word, whatever the case of its letters. -/
def dropWord? (word : String) (cs : List Char) : Option (List Char) :=
  if (cs.take word.length).map Text.lowerAscii = word.toList then some (cs.drop word.length)
  else none

/-- Reads a value that is a word. -/
def readWord? (cs : List Char) : Option (Lenient × List Char) :=
  let read (drop : String → Option (List Char)) (entry : String × Lenient) :=
    match drop entry.1 with
    | some rest => if goesOn rest then none else some (entry.2, rest)
    | none => none
  (exactWords.findSome? (read fun w => Text.dropStart? w.toList cs)).or
    (looseWords.findSome? (read fun w => dropWord? w cs))

/-! ## Strings and names -/

/-- The characters of an escape, given what follows the backslash, and what comes after
them. -/
def splitEscape? : List Char → Option (List Char × List Char)
  | 'u' :: rest =>
    if (readHex4 rest).isSome then some ('u' :: rest.take 4, rest.drop 4) else none
  | 'x' :: a :: b :: rest =>
    if (hexValue? a).isSome && (hexValue? b).isSome then some (['x', a, b], rest) else none
  | '\r' :: '\n' :: rest => some (['\r', '\n'], rest)
  | c :: rest =>
    if ['"', '\\', '/', 'b', 'f', 'n', 'r', 't', '\'', '0', 'v', '\n', '\r', '\u2028',
        '\u2029'].contains c then some ([c], rest)
    else none
  | [] => none

/-- The content of a string up to its closing quote, and what comes after it. -/
def readContent (quote : Char) : Nat → List Char → Option (List Char × List Char)
  | 0, _ => none
  | _ + 1, [] => none
  | fuel + 1, c :: rest =>
    if c = quote then some ([], rest)
    else if c = '\\' then
      match splitEscape? rest with
      | some (taken, rest) =>
        (readContent quote fuel rest).map fun (cs, r) => (c :: taken ++ cs, r)
      | none => none
    else (readContent quote fuel rest).map fun (cs, r) => (c :: cs, r)

/-- Reads a string, if one stands at the front. -/
def readString? : List Char → Option (List Char × List Char)
  | c :: rest => if c = '"' ∨ c = '\'' then readContent c (rest.length + 1) rest else none
  | [] => none

/-- The characters of a word, and what comes after it. -/
def takeWord : Nat → List Char → List Char × List Char
  | 0, cs => ([], cs)
  | fuel + 1, '\\' :: 'u' :: rest =>
    if (readHex4 rest).isSome then
      let (cs, r) := takeWord fuel (rest.drop 4)
      ('\\' :: 'u' :: rest.take 4 ++ cs, r)
    else ([], '\\' :: 'u' :: rest)
  | fuel + 1, c :: rest =>
    if isWordPart c then
      let (cs, r) := takeWord fuel rest
      (c :: cs, r)
    else ([], c :: rest)
  | _ + 1, [] => ([], [])

/-- Reads a name. -/
def readName? (cs : List Char) : Option (List Char × List Char) :=
  match readString? cs with
  | some r => some r
  | none =>
    if (readWord? cs).isSome || cs.head?.any Number.isDigit then none
    else
      match takeWord (cs.length + 1) cs with
      | ([], _) => none
      | r => some r

/-! ## Numbers -/

/-- Reads an exponent, if one stands at the front; a bare `e` is malformed. -/
def readExponent? : List Char → Option (List Char × List Char)
  | [] => some ([], [])
  | e :: rest =>
    if e = 'e' ∨ e = 'E' then
      let sign := (rest.take 1).filter fun c => c == '+' || c == '-'
      match Numeral.takeDigits (rest.drop sign.length) with
      | ([], _) => none
      | (digits, rest) => some (e :: sign ++ digits, rest)
    else some ([], e :: rest)

/-- Reads a number without its sign. -/
def readUnsigned? (negative : Bool) (cs : List Char) : Option (LenientNumber × List Char) :=
  match cs with
  | '0' :: x :: d :: rest =>
    if (x = 'x' ∨ x = 'X') ∧ (hexValue? d).isSome then
      let digits := (d :: rest).takeWhile fun c => (hexValue? c).isSome
      some (.hexadecimal negative digits, (d :: rest).drop digits.length)
    else if Number.isDigit x then none
    else decimal? cs
  | ['0', x] => if Number.isDigit x then none else decimal? cs
  | _ => decimal? cs
where
  /-- Reads decimal digits with a point and an exponent at will. -/
  decimal? (cs : List Char) : Option (LenientNumber × List Char) :=
    let (whole, rest) := Numeral.takeDigits cs
    let (fraction, rest) := match rest with
      | '.' :: r => (some (Numeral.takeDigits r).1, (Numeral.takeDigits r).2)
      | r => (none, r)
    if whole.isEmpty && (fraction.getD []).isEmpty then none
    else (readExponent? rest).map fun (e, r) => (.decimal negative whole fraction e, r)

/-- Reads what may follow a sign: a number or an infinity. -/
def readSigned? (negative : Bool) (cs : List Char) : Option (LenientNumber × List Char) :=
  match dropWord? "infinity" cs, dropWord? "inf" cs with
  | some rest, _ => some (.infinity negative, rest)
  | none, some rest => some (.infinity negative, rest)
  | none, none => readUnsigned? negative cs

/-- Reads a number. -/
def readNumber? : List Char → Option (LenientNumber × List Char)
  | '-' :: rest => readSigned? true rest
  | '+' :: rest => readSigned? false rest
  | cs => readUnsigned? false cs

/-! ## Values -/

/-- How deep arrays and objects may be nested. -/
def mostLevels : Nat := 1000

/-- Reads a value that is neither an array nor an object. -/
def readPlain? (cs : List Char) : Option (Lenient × List Char) :=
  match readString? cs with
  | some (content, rest) => some (string content, rest)
  | none =>
    match readWord? cs with
    | some r => some r
    | none => (readNumber? cs).map fun (n, rest) => (number n, rest)

mutual

/-- Reads one value, given the number of levels that are left. -/
def readValue : Nat → Nat → List Char → Option (Lenient × List Char)
  | 0, _, _ => none
  | fuel + 1, levels, cs =>
    match skip cs, levels with
    | '[' :: rest, levels + 1 => (readItems fuel levels rest).map fun (xs, r) => (array xs, r)
    | '\x7b' :: rest, levels + 1 =>
      (readMembers fuel levels rest).map fun (ms, r) => (object ms, r)
    | rest, _ => readPlain? rest

/-- Reads the items of an array, its closing bracket included. -/
def readItems : Nat → Nat → List Char → Option (List Lenient × List Char)
  | 0, _, _ => none
  | fuel + 1, levels, cs =>
    match skip cs with
    | ']' :: rest => some ([], rest)
    | rest =>
      match readValue fuel levels rest with
      | none => none
      | some (x, rest) =>
        match skip rest with
        | ',' :: rest => (readItems fuel levels rest).map fun (xs, r) => (x :: xs, r)
        | ']' :: rest => some ([x], rest)
        | _ => none

/-- Reads the members of an object, its closing brace included. -/
def readMembers : Nat → Nat → List Char → Option (List (List Char × Lenient) × List Char)
  | 0, _, _ => none
  | fuel + 1, levels, cs =>
    match skip cs with
    | '\x7d' :: rest => some ([], rest)
    | rest =>
      match readName? rest with
      | none => none
      | some (name, rest) =>
        match skip rest with
        | ':' :: rest =>
          match readValue fuel levels rest with
          | none => none
          | some (v, rest) =>
            match skip rest with
            | ',' :: rest =>
              (readMembers fuel levels rest).map fun (ms, r) => ((name, v) :: ms, r)
            | '\x7d' :: rest => some ([(name, v)], rest)
            | _ => none
        | _ => none

end

/-- Reads a text that holds one value and nothing else. -/
def parse? (text : String) : Option Lenient :=
  let cs := text.toList.takeWhile (· ≠ '\x00')
  match readValue (2 * cs.length + 2) mostLevels cs with
  | some (j, rest) => if (skip rest).isEmpty then some j else none
  | none => none

end GraphBase.Json.Lenient
