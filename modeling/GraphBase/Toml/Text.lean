import GraphBase.Toml.Plain
import GraphBase.Toml.Quoted

/-!
# TOML texts

`parse?` reads a TOML text.  A text is a sequence of lines: a header in brackets opens a
table, a header in double brackets opens one more table of a row, and every other line puts
a value under a name into the table that was opened last.  Blank lines and comments count
for nothing, and neither does a byte order mark at the beginning.

A name is one word, or several with points between them, each bare or in quotes.  Arrays
may go over several lines and end with a comma; tables between braces may do neither.

## Limits

A name has at most `depthLimit` words, and values are nested at most as deeply.  Reading
an item list is a loop over the text; a step of it consumes a character, so the length of
the text bounds the number of steps.
-/

namespace GraphBase.Toml

/-- How deep names and values may go. -/
def depthLimit : Nat := 79

/-! ## Between values -/

/-- What follows blanks, line breaks and comments. -/
def skipSpace (inComment : Bool) : List Char → List Char
  | [] => []
  | '\n' :: rest => skipSpace false rest
  | '\r' :: '\n' :: rest => skipSpace false rest
  | c :: rest =>
    if inComment then if isPlain c then skipSpace true rest else c :: rest
    else if isBlank c then skipSpace false rest
    else if c = '#' then skipSpace true rest
    else c :: rest

/-- What follows the end of a line, on which only a comment may still stand. -/
def endLine? (cs : List Char) : Option (List Char) :=
  let rest := match skipBlanks cs with
    | '#' :: rest => rest.dropWhile isPlain
    | rest => rest
  if rest.isEmpty then some [] else dropLineBreak? rest

/-! ## Names -/

/-- A character of a bare word. -/
def isWordChar (c : Char) : Bool :=
  ('a' ≤ c && c ≤ 'z') || ('A' ≤ c && c ≤ 'Z') || Number.isDigit c || c == '_' || c == '-'

/-- Reads a word of a name. -/
def readWord? : List Char → Option (String × List Char)
  | '"' :: rest => readShortText? '"' rest
  | '\'' :: rest => readShortText? '\'' rest
  | cs =>
    let word := cs.takeWhile isWordChar
    if word.isEmpty then none else some (String.ofList word, cs.drop word.length)

/-- Reads a name of at most `limit` words, and the blanks around them. -/
def readName? : (limit : Nat) → List Char → Option (List String × List Char)
  | 0, _ => none
  | limit + 1, cs =>
    match readWord? (skipBlanks cs) with
    | none => none
    | some (word, rest) =>
      match skipBlanks rest with
      | '.' :: rest => (readName? limit rest).map fun (words, r) => (word :: words, r)
      | rest => some ([word], rest)

/-! ## Values -/

/-- How one value is read. -/
abbrev Reader := List Char → Option (Toml × List Char)

/-- Reads the items of an array up to its closing bracket, which is consumed. -/
def readItems? (read : Reader) : Nat → List Char → Option (List Toml × List Char)
  | 0, _ => none
  | fuel + 1, cs =>
    match skipSpace false cs with
    | ']' :: rest => some ([], rest)
    | cs =>
      match read cs with
      | none => none
      | some (item, rest) =>
        match skipSpace false rest with
        | ',' :: rest => (readItems? read fuel rest).map fun (items, r) => (item :: items, r)
        | ']' :: rest => some ([item], rest)
        | _ => none

/-- Reads a name and the value it stands for. -/
def readEntry? (read : Reader) (cs : List Char) :
    Option ((List String × Toml) × List Char) :=
  match readName? depthLimit cs with
  | some (name, '=' :: rest) =>
    (read (skipBlanks rest)).map fun (value, r) => ((name, value), r)
  | _ => none

/-- Reads the members of a table between braces, which has at least one, up to its closing
brace, which is consumed.  They are put into the table as they come. -/
def readMembers? (read : Reader) : Nat → Members → List Char → Option (Members × List Char)
  | 0, _, _ => none
  | fuel + 1, members, cs =>
    match readEntry? read cs with
    | none => none
    | some ((name, value), rest) =>
      match changeAt? .dotted (insert? value) name members with
      | none => none
      | some members =>
        match skipBlanks rest with
        | ',' :: rest => readMembers? read fuel members rest
        | '\x7d' :: rest => some (members, rest)
        | _ => none

/-- Reads a value that may have values in it to a depth. -/
def readValue? : (depth : Nat) → Reader
  | _, '"' :: rest => (readText? '"' rest).map fun (s, r) => (string s, r)
  | _, '\'' :: rest => (readText? '\'' rest).map fun (s, r) => (string s, r)
  | 0, '[' :: _ => none
  | depth + 1, '[' :: rest =>
    (readItems? (readValue? depth) (rest.length + 1) rest).map fun (items, r) =>
      (array items, r)
  | 0, '\x7b' :: _ => none
  | depth + 1, '\x7b' :: rest =>
    match skipBlanks rest with
    | '\x7d' :: rest => some (table .inline [], rest)
    | rest =>
      (readMembers? (readValue? depth) (rest.length + 1) [] rest).map fun (members, r) =>
        (table .inline members, r)
  | _, cs => readPlain? cs

/-! ## Lines -/

/-- What has been read of a text: the header that was met last, and all members. -/
structure Draft where
  header : List String := []
  members : Members := []

/-- Puts a value into the table that was opened last. -/
def Draft.insert? (d : Draft) (name : List String) (value : Toml) : Option Draft :=
  (change? .header (changeAt? .dotted (Toml.insert? value) name) d.header d.members).map
    fun members => { d with members }

/-- Meets a header. -/
def Draft.open? (d : Draft) (act : String → Members → Option Members) (name : List String) :
    Option Draft :=
  (changeAt? .header act name d.members).map fun members => ⟨name, members⟩

/-- Reads a line that is not blank, up to its end. -/
def readExpression? (d : Draft) : List Char → Option (Draft × List Char)
  | '[' :: '[' :: rest =>
    match readName? depthLimit rest with
    | some (name, ']' :: ']' :: rest) => (d.open? append? name).map fun d => (d, rest)
    | _ => none
  | '[' :: rest =>
    match readName? depthLimit rest with
    | some (name, ']' :: rest) => (d.open? define? name).map fun d => (d, rest)
    | _ => none
  | cs =>
    match readEntry? (readValue? depthLimit) cs with
    | some ((name, value), rest) => (d.insert? name value).map fun d => (d, rest)
    | none => none

/-- Reads all lines. -/
def readDocument? : Nat → Draft → List Char → Option Members
  | 0, _, _ => none
  | fuel + 1, d, cs =>
    match skipSpace false cs with
    | [] => some d.members
    | cs =>
      match readExpression? d cs with
      | none => none
      | some (d, rest) =>
        match endLine? rest with
        | some rest => readDocument? fuel d rest
        | none => none

/-- Reads a text. -/
def parse? (s : String) : Option Members :=
  let cs := match s.toList with
    | '\ufeff' :: rest => rest
    | cs => cs
  readDocument? (cs.length + 1) {} cs

end GraphBase.Toml
