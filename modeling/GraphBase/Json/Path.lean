import GraphBase.Json.LenientText

/-!
# Looking up a key in a stored text

A property filter is decided where the text is stored: the statement hands over a path
and gets back the cell that the text has there.

## Paths

The path of a key is `$."key"`, with every quote of the key behind a backslash
(`keyPath`).  A path ends at the first NUL.  It is read as steps: `."label"` and `.label` go
to a member of an object, `[n]` and `[#-n]` to an item of an array.  A label between quotes
ends at the *first* quote, whether or not a backslash precedes it, and is read with escapes.

So a key without quotes, backslashes and NULs addresses itself.  A quote cuts the label short,
and what follows it in the key is read as further steps.

## Looking up

A step that finds no member or item, or that does not fit the value, finds nothing.  The first
member of a matching name counts.  A path that makes no sense from some place on fails, but only
if the look-up gets there; and a text that cannot be read fails, whatever the path.
-/

namespace GraphBase.Json

/-- Puts a backslash before every quote. -/
def escapeQuotes (cs : List Char) : List Char :=
  cs.flatMap fun c => if c = '"' then ['\\', '"'] else [c]

/-- The path that addresses a key at the top of an object. -/
def keyPath (key : String) : String :=
  String.ofList ("$.\"".toList ++ escapeQuotes key.toList ++ ['"'])

/-! ## Steps -/

/-- One step of a path. -/
inductive PathStep where
  /-- To a member, given its label and whether that is read with escapes. -/
  | member (label : List Char) (hasEscapes : Bool)
  /-- To an item, counted from zero. -/
  | item (index : Nat)
  /-- To an item, counted from the end. -/
  | itemFromEnd (distance : Nat)
  deriving DecidableEq, Repr

/-- How a path ends. -/
inductive PathEnd where
  | complete
  /-- What follows makes no sense. -/
  | malformed
  /-- What follows makes no sense, but at anything other than an array it is not looked at. -/
  | malformedItem
  deriving DecidableEq, Repr

/-- A path, step by step. -/
structure KeyPath where
  steps : List PathStep
  ending : PathEnd
  deriving DecidableEq, Repr

/-- A path with one more step at its front. -/
def KeyPath.push (step : PathStep) (p : KeyPath) : KeyPath := { p with steps := step :: p.steps }

/-- The number of an item; numbers wrap around at 32 bits. -/
def itemNumber (digits : List Char) : Nat := Number.ofDigits digits % 0x100000000

/-- Reads an item behind its bracket, and what comes after it. -/
def readItem? (cs : List Char) : Option (PathStep × List Char) :=
  match Numeral.takeDigits cs with
  | (d :: ds, ']' :: rest) => some (.item (itemNumber (d :: ds)), rest)
  | _ =>
    match cs with
    | '#' :: ']' :: rest => some (.itemFromEnd 0, rest)
    | '#' :: '-' :: rest =>
      match Numeral.takeDigits rest with
      | (d :: ds, ']' :: rest) => some (.itemFromEnd (itemNumber (d :: ds)), rest)
      | _ => none
    | _ => none

/-- Reads a label behind its point, and what comes after it. -/
def readLabel? : List Char → Option (PathStep × List Char)
  | '"' :: rest =>
    match rest.dropWhile (· ≠ '"') with
    | _ :: after => some (.member (rest.takeWhile (· ≠ '"')) true, after)
    | [] => none
  | cs =>
    match cs.takeWhile fun c => c ≠ '.' && c ≠ '[' with
    | [] => none
    | label => some (.member label false, cs.drop label.length)

/-- Reads the steps of a path; `fuel` is at least the number of its characters. -/
def readSteps (fuel : Nat) (cs : List Char) : KeyPath :=
  match fuel, cs with
  | _, [] => ⟨[], .complete⟩
  | fuel + 1, '.' :: rest =>
    match readLabel? rest with
    | some (step, rest) => (readSteps fuel rest).push step
    | none => ⟨[], .malformed⟩
  | fuel + 1, '[' :: rest =>
    match readItem? rest with
    | some (step, rest) => (readSteps fuel rest).push step
    | none => ⟨[], .malformedItem⟩
  | _, _ => ⟨[], .malformed⟩

/-- Reads a path, which has to begin with `$`. -/
def readPath (path : String) : KeyPath :=
  match path.toList.takeWhile (· ≠ '\x00') with
  | '$' :: rest => readSteps rest.length rest
  | _ => ⟨[], .malformed⟩

/-! ## Labels -/

/-- The characters of a label, up to the character zero, where the comparison of two labels
ends. -/
def labelCodes (hasEscapes : Bool) (label : List Char) : List Nat :=
  let bytes := (String.ofList label).toUTF8.toList
  let values := if hasEscapes then (Escaped.codes bytes).map (·.value)
    else Escaped.plainCodes bytes.length bytes
  values.takeWhile (· ≠ 0)

/-- Whether a label names a member. -/
def labelMatches (label : List Char) (hasEscapes : Bool) (name : List Char) : Bool :=
  labelCodes hasEscapes label == labelCodes true name

/-! ## Looking up -/

/-- The value at the end of some steps. -/
def Lenient.at? : List PathStep → PathEnd → Lenient → Except StorageFault (Option Lenient)
  | [], .complete, j => .ok (some j)
  | [], .malformed, _ => .error .badStatement
  | [], .malformedItem, array _ => .error .badStatement
  | [], .malformedItem, _ => .ok none
  | .member label hasEscapes :: rest, ending, object members =>
    match members.find? fun m => labelMatches label hasEscapes m.1 with
    | some (_, j) => at? rest ending j
    | none => .ok none
  | .item index :: rest, ending, array items =>
    match items[index]? with
    | some j => at? rest ending j
    | none => .ok none
  | .itemFromEnd distance :: rest, ending, array items =>
    if items.length < distance then .ok none
    else
      match items[items.length - distance]? with
      | some j => at? rest ending j
      | none => .ok none
  | _ :: _, _, _ => .ok none

/-- The cell at a path of a stored text. -/
def extract (text path : String) : Except StorageFault Cell :=
  match Lenient.parse? text with
  | none => .error .badStatement
  | some j =>
    let p := readPath path
    match Lenient.at? p.steps p.ending j with
    | .error f => .error f
    | .ok none => .ok .null
    | .ok (some found) =>
      match found.toCell? with
      | some c => .ok c
      | none => .error .badStatement

end GraphBase.Json
