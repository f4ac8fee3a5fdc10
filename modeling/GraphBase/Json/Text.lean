import GraphBase.Json.Basic
import GraphBase.Text.Hex

/-!
# JSON texts

`parse?` reads a JSON text by the strict grammar: one value, blanks only around
tokens, no trailing comma, no comment, no control character inside a string, and
surrogate escapes in pairs.  `render` writes a value without blanks; `pretty`
writes the same value over several lines, two blanks deeper per level.

Inside strings only the quote, the backslash and the control characters are
escaped; every other character stands for itself.

The reader recurses on a count of steps.  A step consumes a character, or hands
over to a reader that does, so twice the length of the text is enough.
-/

namespace GraphBase.Json

open GraphBase.Text (hexDigit hexValue?)

/-! ## Writing -/

/-- The written form of one character inside a string. -/
def escapeChar (c : Char) : List Char :=
  if c = '"' then ['\\', '"']
  else if c = '\\' then ['\\', '\\']
  else if c = '\n' then ['\\', 'n']
  else if c = '\r' then ['\\', 'r']
  else if c = '\t' then ['\\', 't']
  else if c = '\x08' then ['\\', 'b']
  else if c = '\x0c' then ['\\', 'f']
  else if c.toNat < 0x20 then
    ['\\', 'u', '0', '0', hexDigit (c.toNat / 16), hexDigit (c.toNat % 16)]
  else [c]

/-- A string between quotes. -/
def stringChars (s : String) : List Char := '"' :: s.toList.flatMap escapeChar ++ ['"']

mutual

/-- A value without blanks. -/
def toChars : Json → List Char
  | null => ['n', 'u', 'l', 'l']
  | bool true => ['t', 'r', 'u', 'e']
  | bool false => ['f', 'a', 'l', 's', 'e']
  | number n => n.toChars
  | string s => stringChars s
  | array items => '[' :: itemChars items
  | object members => '\x7b' :: memberChars members

/-- The items of an array, its closing bracket included. -/
def itemChars : List Json → List Char
  | [] => [']']
  | [x] => x.toChars ++ [']']
  | x :: y :: rest => x.toChars ++ ',' :: itemChars (y :: rest)

/-- The members of an object, its closing brace included. -/
def memberChars : List (String × Json) → List Char
  | [] => ['\x7d']
  | [(k, v)] => stringChars k ++ ':' :: v.toChars ++ ['\x7d']
  | (k, v) :: m :: rest => stringChars k ++ ':' :: v.toChars ++ ',' :: memberChars (m :: rest)

end

/-- The compact text of a value. -/
def render (j : Json) : String := String.ofList j.toChars

/-! ## Writing over several lines -/

/-- A line break and the blanks of a level. -/
def lineBreak (level : Nat) : List Char := '\n' :: List.replicate (2 * level) ' '

mutual

/-- A value over several lines; an empty array or object stays on its line. -/
def prettyChars (level : Nat) : Json → List Char
  | array [] => ['[', ']']
  | object [] => ['\x7b', '\x7d']
  | array items => '[' :: prettyItems level items
  | object members => '\x7b' :: prettyMembers level members
  | null => ['n', 'u', 'l', 'l']
  | bool b => (if b then "true" else "false").toList
  | number n => n.toChars
  | string s => stringChars s

def prettyItems (level : Nat) : List Json → List Char
  | [] => [']']
  | [x] => lineBreak (level + 1) ++ x.prettyChars (level + 1) ++ lineBreak level ++ [']']
  | x :: y :: rest =>
    lineBreak (level + 1) ++ x.prettyChars (level + 1) ++ ',' :: prettyItems level (y :: rest)

def prettyMembers (level : Nat) : List (String × Json) → List Char
  | [] => ['\x7d']
  | [(k, v)] =>
    lineBreak (level + 1) ++ stringChars k ++ ':' :: ' ' :: v.prettyChars (level + 1) ++
      lineBreak level ++ ['\x7d']
  | (k, v) :: m :: rest =>
    lineBreak (level + 1) ++ stringChars k ++ ':' :: ' ' :: v.prettyChars (level + 1) ++
      ',' :: prettyMembers level (m :: rest)

end

/-- The text of a value over several lines. -/
def pretty (j : Json) : String := String.ofList (j.prettyChars 0)

/-! ## Reading -/

/-- The four characters that may stand between tokens. -/
def isSpace (c : Char) : Bool := c == ' ' || c == '\t' || c == '\n' || c == '\r'

def skipSpace (cs : List Char) : List Char := cs.dropWhile isSpace

/-- The four hexadecimal digits of a numeric escape. -/
def readHex4 : List Char → Option (Nat × List Char)
  | a :: b :: c :: d :: rest =>
    match hexValue? a, hexValue? b, hexValue? c, hexValue? d with
    | some a, some b, some c, some d => some (((a * 16 + b) * 16 + c) * 16 + d, rest)
    | _, _, _, _ => none
  | _ => none

/-- Reads what follows the backslash of an escape. -/
def readEscape : List Char → Option (Char × List Char)
  | '"' :: rest => some ('"', rest)
  | '\\' :: rest => some ('\\', rest)
  | '/' :: rest => some ('/', rest)
  | 'b' :: rest => some ('\x08', rest)
  | 'f' :: rest => some ('\x0c', rest)
  | 'n' :: rest => some ('\n', rest)
  | 'r' :: rest => some ('\r', rest)
  | 't' :: rest => some ('\t', rest)
  | 'u' :: rest =>
    match readHex4 rest with
    | none => none
    | some (n, rest) =>
      if 0xD800 ≤ n ∧ n < 0xDC00 then
        match rest with
        | '\\' :: 'u' :: rest =>
          match readHex4 rest with
          | some (low, rest) =>
            if 0xDC00 ≤ low ∧ low < 0xE000 then
              some (Char.ofNat (0x10000 + (n - 0xD800) * 0x400 + (low - 0xDC00)), rest)
            else none
          | none => none
        | _ => none
      else if 0xDC00 ≤ n ∧ n < 0xE000 then none
      else some (Char.ofNat n, rest)
  | _ => none

/-- Reads a string up to its closing quote, which is consumed. -/
def readString : Nat → List Char → Option (List Char × List Char)
  | 0, _ => none
  | _ + 1, [] => none
  | fuel + 1, c :: rest =>
    if c = '"' then some ([], rest)
    else if c = '\\' then
      match readEscape rest with
      | none => none
      | some (d, rest) => (readString fuel rest).map fun (ds, r) => (d :: ds, r)
    else if c.toNat < 0x20 then none
    else (readString fuel rest).map fun (ds, r) => (c :: ds, r)

mutual

/-- Reads one value. -/
def readValue : Nat → List Char → Option (Json × List Char)
  | 0, _ => none
  | fuel + 1, cs =>
    match skipSpace cs with
    | 'n' :: 'u' :: 'l' :: 'l' :: rest => some (null, rest)
    | 't' :: 'r' :: 'u' :: 'e' :: rest => some (bool true, rest)
    | 'f' :: 'a' :: 'l' :: 's' :: 'e' :: rest => some (bool false, rest)
    | '"' :: rest =>
      (readString (rest.length + 1) rest).map fun (s, r) => (string (String.ofList s), r)
    | '[' :: rest =>
      match skipSpace rest with
      | ']' :: rest => some (array [], rest)
      | rest => (readItems fuel rest).map fun (xs, r) => (array xs, r)
    | '\x7b' :: rest =>
      match skipSpace rest with
      | '\x7d' :: rest => some (object [], rest)
      | rest => (readMembers fuel rest).map fun (ms, r) => (object ms, r)
    | rest => (Numeral.read rest).map fun (n, r) => (number n, r)

/-- Reads the items of an array that has at least one, its closing bracket included. -/
def readItems : Nat → List Char → Option (List Json × List Char)
  | 0, _ => none
  | fuel + 1, cs =>
    match readValue fuel cs with
    | none => none
    | some (x, rest) =>
      match skipSpace rest with
      | ',' :: rest => (readItems fuel rest).map fun (xs, r) => (x :: xs, r)
      | ']' :: rest => some ([x], rest)
      | _ => none

/-- Reads the members of an object that has at least one, its closing brace included. -/
def readMembers : Nat → List Char → Option (List (String × Json) × List Char)
  | 0, _ => none
  | fuel + 1, cs =>
    match skipSpace cs with
    | '"' :: rest =>
      match readString (rest.length + 1) rest with
      | none => none
      | some (k, rest) =>
        match skipSpace rest with
        | ':' :: rest =>
          match readValue fuel rest with
          | none => none
          | some (v, rest) =>
            match skipSpace rest with
            | ',' :: rest =>
              (readMembers fuel rest).map fun (ms, r) => ((String.ofList k, v) :: ms, r)
            | '\x7d' :: rest => some ([(String.ofList k, v)], rest)
            | _ => none
        | _ => none
    | _ => none

end

/-- Reads a text that holds one value and nothing else. -/
def parseChars? (cs : List Char) : Option Json :=
  match readValue (2 * cs.length + 2) cs with
  | some (j, rest) => if (skipSpace rest).isEmpty then some j else none
  | none => none

/-- Reads a text that holds one value and nothing else. -/
def parse? (s : String) : Option Json := parseChars? s.toList

end GraphBase.Json
