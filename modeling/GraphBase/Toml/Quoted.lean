import GraphBase.Text.Find
import GraphBase.Text.Hex

/-!
# Texts in TOML

A text stands between quotes, in four forms.  Between double quotes a backslash begins an
escape, between single quotes every character stands for itself.  One quote at either end
keeps the text on its line; three quotes let it have several lines.  In the second case a
line break directly after the quotes does not count, up to two quotes are ordinary
characters, also directly before the closing three, and a backslash at the end of a line
joins it with the next character that is no blank.

Control characters other than the tab never stand for themselves.
-/

namespace GraphBase.Toml

open GraphBase.Text (hexValue?)

/-! ## Characters -/

/-- A character that separates within a line. -/
def isBlank (c : Char) : Bool := c == ' ' || c == '\t'

/-- A character that may stand in a text or a comment. -/
def isPlain (c : Char) : Bool := c == '\t' || (0x20 ≤ c.toNat && c.toNat != 0x7F)

def skipBlanks (cs : List Char) : List Char := cs.dropWhile isBlank

/-- What follows a line break, if there is one. -/
def dropLineBreak? : List Char → Option (List Char)
  | '\n' :: rest => some rest
  | '\r' :: '\n' :: rest => some rest
  | _ => none

/-- What follows blanks and line breaks. -/
def skipLines : List Char → List Char
  | '\r' :: '\n' :: rest => skipLines rest
  | c :: rest => if isBlank c || c == '\n' then skipLines rest else c :: rest
  | [] => []

/-! ## Escapes -/

/-- The character of a number in hexadecimal; surrogates are no characters. -/
def charOfHex? (digits : List Char) : Option Char :=
  match digits.mapM hexValue? with
  | some ds =>
    let n := ds.foldl (fun n d => n * 16 + d) 0
    if n.isValidChar then some (Char.ofNat n) else none
  | none => none

/-- Reads a number of exactly `count` digits. -/
def readHex? (count : Nat) (cs : List Char) : Option (Char × List Char) :=
  if cs.length < count then none
  else (charOfHex? (cs.take count)).map fun c => (c, cs.drop count)

/-- Reads what follows the backslash of an escape. -/
def readEscape? : List Char → Option (Char × List Char)
  | 'b' :: rest => some ('\x08', rest)
  | 't' :: rest => some ('\t', rest)
  | 'n' :: rest => some ('\n', rest)
  | 'f' :: rest => some ('\x0c', rest)
  | 'r' :: rest => some ('\r', rest)
  | '"' :: rest => some ('"', rest)
  | '\\' :: rest => some ('\\', rest)
  | 'u' :: rest => readHex? 4 rest
  | 'U' :: rest => readHex? 8 rest
  | _ => none

/-! ## Reading -/

/-- Whether a backslash begins an escape between such quotes. -/
def hasEscapes (quote : Char) : Bool := quote == '"'

/-- The characters read, with one more before them. -/
def push (c : Char) (r : List Char × List Char) : List Char × List Char := (c :: r.1, r.2)

/-- Reads a text on one line up to its closing quote, which is consumed. -/
def readLine? (quote : Char) : Nat → List Char → Option (List Char × List Char)
  | 0, _ => none
  | _ + 1, [] => none
  | fuel + 1, c :: rest =>
    if c = quote then some ([], rest)
    else if c = '\\' ∧ hasEscapes quote then
      match readEscape? rest with
      | some (d, rest) => (readLine? quote fuel rest).map (push d)
      | none => none
    else if isPlain c then (readLine? quote fuel rest).map (push c)
    else none

/-- The end of a text over several lines: three quotes, and up to two more before them,
which belong to the text. -/
def readClosing? (quote : Char) (cs : List Char) : Option (List Char × List Char) :=
  let quotes := (cs.take 5).takeWhile (· = quote)
  if quotes.length < 3 then none else some (quotes.drop 3, cs.drop quotes.length)

/-- Reads a text over several lines up to its closing quotes, which are consumed. -/
def readLines? (quote : Char) : Nat → List Char → Option (List Char × List Char)
  | 0, _ => none
  | _ + 1, [] => none
  | fuel + 1, c :: rest =>
    match readClosing? quote (c :: rest) with
    | some r => some r
    | none =>
      if c = '\\' ∧ hasEscapes quote then
        match dropLineBreak? (skipBlanks rest) with
        | some rest => readLines? quote fuel (skipLines rest)
        | none =>
          match readEscape? rest with
          | some (d, rest) => (readLines? quote fuel rest).map (push d)
          | none => none
      else if isPlain c then (readLines? quote fuel rest).map (push c)
      else
        match dropLineBreak? (c :: rest) with
        | some rest => (readLines? quote fuel rest).map (push '\n')
        | none => none

/-- Reads a text on one line, given its opening quote. -/
def readShortText? (quote : Char) (cs : List Char) : Option (String × List Char) :=
  (readLine? quote (cs.length + 1) cs).map fun (s, r) => (String.ofList s, r)

/-- Reads a text in any form, given the first of its opening quotes. -/
def readText? (quote : Char) (cs : List Char) : Option (String × List Char) :=
  match Text.dropStart? [quote, quote] cs with
  | some body =>
    let body := (dropLineBreak? body).getD body
    (readLines? quote (body.length + 1) body).map fun (s, r) => (String.ofList s, r)
  | none => readShortText? quote cs

/-! ## Writing -/

/-- What decides how a text is written. -/
structure Features where
  /-- It has a control character other than tab and line feed. -/
  hasControl : Bool
  hasBackslash : Bool
  hasLineFeed : Bool
  /-- The longest runs of either quote. -/
  doubleRun : Nat
  singleRun : Nat

/-- The length of the longest run of a character; `current` is the run before the text. -/
def longestRun (c : Char) (current : Nat) : List Char → Nat
  | [] => current
  | d :: rest =>
    if d = c then longestRun c (current + 1) rest else max current (longestRun c 0 rest)

/-- A control character other than tab and line feed. -/
def isControl (c : Char) : Bool := (c.toNat < 0x20 && c != '\t' && c != '\n') || c.toNat == 0x7F

/-- The features of a text. -/
def Features.of (cs : List Char) : Features where
  hasControl := cs.any isControl
  hasBackslash := cs.contains '\\'
  hasLineFeed := cs.contains '\n'
  doubleRun := longestRun '"' 0 cs
  singleRun := longestRun '\'' 0 cs

/-- A form of a text: its quote, and whether there are three of them. -/
structure Form where
  quote : Char
  isLong : Bool
  deriving DecidableEq

/-- The form in which a text is written: the first one without escapes that has room for
it, double quotes before single ones and one line before several. -/
def Features.form (f : Features) : Form :=
  let isTame := !f.hasControl && !f.hasBackslash
  if isTame && !f.hasLineFeed && f.doubleRun == 0 then ⟨'"', false⟩
  else if !f.hasControl && !f.hasLineFeed && f.singleRun == 0 then ⟨'\'', false⟩
  else if isTame && f.doubleRun ≤ 2 then ⟨'"', true⟩
  else if !f.hasControl && f.singleRun ≤ 2 then ⟨'\'', true⟩
  else ⟨'"', f.hasLineFeed⟩

/-- The characters of a text between double quotes.  Of three quotes in a row over several
lines the third is escaped; `quotes` counts those directly before. -/
def escaped (isLong : Bool) (quotes : Nat) : List Char → List Char
  | [] => []
  | c :: rest =>
    if c = '"' then
      if isLong ∧ quotes < 2 then '"' :: escaped isLong (quotes + 1) rest
      else '\\' :: '"' :: escaped isLong 0 rest
    else
      let written :=
        if c = '\n' then if isLong then [c] else ['\\', 'n']
        else if c = '\t' then ['\\', 't']
        else if c = '\r' then ['\\', 'r']
        else if c = '\x08' then ['\\', 'b']
        else if c = '\x0c' then ['\\', 'f']
        else if c = '\\' then ['\\', '\\']
        else if isControl c then
          ['\\', 'u', '0', '0'] ++ (Text.byteDigits c.toNat.toUInt8).map Char.toUpper
        else [c]
      written ++ escaped isLong 0 rest

/-- The written form of a text. -/
def writeText (s : String) : String :=
  let cs := s.toList
  let form := (Features.of cs).form
  let quotes := List.replicate (if form.isLong then 3 else 1) form.quote
  let start := if form.isLong && cs.contains '\n' then ['\n'] else []
  let body := if hasEscapes form.quote then escaped form.isLong 0 cs else cs
  String.ofList (quotes ++ start ++ body ++ quotes)

end GraphBase.Toml
