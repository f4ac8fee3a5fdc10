import GraphBase.Text.Hex
import GraphBase.Toml.Basic
import GraphBase.Value.Instant
import GraphBase.Value.Scalar

/-!
# Plain values in TOML

Truth values, numbers and moments are written without quotes, as one run of letters, digits
and the marks `+ - _ . :`.  The run tells what it is.

* An *integer* is decimal with a sign at will and without leading zeros, or hexadecimal,
  octal or binary after `0x`, `0o` and `0b` without a sign.  It fits 64 bits with a sign.
* A *floating point number* has digits before the point, and a fraction, an exponent or
  both; or it is `inf` or `nan`, with a sign at will.  One that is too large for a finite
  number is refused if it is positive.
* A *moment* is a date, a time of day, or both, and then possibly with an offset.  Date and
  time may be parted by one blank, the only one in a plain value.

Between two digits of a number there may be an underscore.
-/

namespace GraphBase.Toml

open GraphBase.Number
open GraphBase.Text (hexValue?)

/-! ## Numbers -/

/-- Digits without the underscores between them. -/
def ungroup? (isDigit : Char → Bool) (cs : List Char) : Option (List Char) :=
  let groups := Text.splitAll '_' cs
  if groups.all fun g => !g.isEmpty && g.all isDigit then some groups.flatten else none

/-- The number that grouped digits write in a base. -/
def readBase? (base : Nat) (cs : List Char) : Option Nat :=
  (ungroup? (fun c => (hexValue? c).any (· < base)) cs).map fun ds =>
    ds.foldl (fun n c => n * base + (hexValue? c).getD 0) 0

/-- The digits before a point, which are those of a decimal integer without a sign. -/
def readWhole? (cs : List Char) : Option (List Char) :=
  match ungroup? isDigit cs with
  | some ('0' :: _ :: _) => none
  | ds => ds

/-- An integer of any size. -/
def readAnyInteger? : List Char → Option Int
  | '0' :: 'x' :: ds => (readBase? 16 ds).map Int.ofNat
  | '0' :: 'o' :: ds => (readBase? 8 ds).map Int.ofNat
  | '0' :: 'b' :: ds => (readBase? 2 ds).map Int.ofNat
  | cs =>
    let (negative, ds) := Scalar.takeSign cs
    (readWhole? ds).map fun ds => if negative then -(ofDigits ds : Int) else ofDigits ds

/-- An integer. -/
def readInteger? (cs : List Char) : Option Int := (readAnyInteger? cs).filter Scalar.fitsInt64

/-- Whether there is a fraction, and it is one. -/
def isFraction : List Char → Bool
  | '.' :: ds => (ungroup? isDigit ds).isSome
  | _ => false

/-- Whether there is an exponent, and it is one. -/
def isExponent : List Char → Bool
  | c :: cs => (c == 'e' || c == 'E') && (ungroup? isDigit (Scalar.takeSign cs).2).isSome
  | [] => false

/-- Whether a text is a decimal number with a fraction or an exponent. -/
def isDecimal (cs : List Char) : Bool :=
  let body := (Scalar.takeSign cs).2
  let mantissa := body.takeWhile fun c => c != 'e' && c != 'E'
  let exponent := body.drop mantissa.length
  let whole := mantissa.takeWhile (· != '.')
  let fraction := mantissa.drop whole.length
  (readWhole? whole).isSome &&
    ((isFraction fraction && (exponent.isEmpty || isExponent exponent)) ||
      (fraction.isEmpty && isExponent exponent))

/-- A floating point number. -/
def readFloat? (cs : List Char) : Option Binary64 :=
  let (negative, body) := Scalar.takeSign cs
  if body = ['i', 'n', 'f'] then some (.infinity negative)
  else if body = ['n', 'a', 'n'] then some (.quietNaN negative)
  else if isDecimal cs then
    (Scalar.readFloat? (cs.filter (· != '_'))).filter fun x => x != .infinity false
  else none

/-! ## Moments -/

/-- What follows a date. -/
def dropDate? (cs : List Char) : Option (List Char) := do
  let (year, cs) ← Instant.readNumber 4 4 cs
  let cs ← Instant.readChar '-' cs
  let (month, cs) ← Instant.readNumber 2 2 cs
  let cs ← Instant.readChar '-' cs
  let (day, cs) ← Instant.readNumber 2 2 cs
  if 1 ≤ month ∧ month ≤ 12 ∧ 1 ≤ day ∧ day ≤ Instant.daysInMonth year month then some cs
  else none

/-- What follows a time of day. -/
def dropTime? (cs : List Char) : Option (List Char) := do
  let (hour, cs) ← Instant.readNumber 2 2 cs
  let cs ← Instant.readChar ':' cs
  let (minute, cs) ← Instant.readNumber 2 2 cs
  let cs ← Instant.readChar ':' cs
  let (second, cs) ← Instant.readNumber 2 2 cs
  let (_, cs) ← Instant.readFraction cs
  if hour < 24 ∧ minute < 60 ∧ second ≤ 60 then some cs else none

/-- Whether nothing is left, or an offset alone. -/
def isOffset (cs : List Char) : Bool :=
  cs.isEmpty || (Instant.readOffset cs).any fun r => r.2.isEmpty

/-- Whether a text is a moment. -/
def isMoment (cs : List Char) : Bool :=
  match dropTime? cs with
  | some rest => rest.isEmpty
  | none =>
    match dropDate? cs with
    | none => false
    | some [] => true
    | some (c :: rest) =>
      (c == 'T' || c == 't' || c == ' ') && (dropTime? rest).any isOffset

/-! ## Runs -/

/-- A character of a plain value. -/
def isRunChar (c : Char) : Bool :=
  ('a' ≤ c && c ≤ 'z') || ('A' ≤ c && c ≤ 'Z') || isDigit c ||
    c == '+' || c == '-' || c == '_' || c == '.' || c == ':'

/-- The run at the front of a text; one that is a date goes on with a time after a blank. -/
def takeRun (cs : List Char) : List Char :=
  let run := cs.takeWhile isRunChar
  match cs.drop run.length with
  | ' ' :: d :: rest =>
    if dropDate? run = some [] && isDigit d then run ++ ' ' :: (d :: rest).takeWhile isRunChar
    else run
  | _ => run

/-- The value of a run. -/
def ofRun? (run : List Char) : Option Toml :=
  if run = "true".toList then some (boolean true)
  else if run = "false".toList then some (boolean false)
  else
    match readInteger? run, readFloat? run with
    | some i, _ => some (integer i)
    | none, some x => some (float x)
    | none, none => if isMoment run then some (moment (String.ofList run)) else none

/-- Reads a plain value. -/
def readPlain? (cs : List Char) : Option (Toml × List Char) :=
  let run := takeRun cs
  (ofRun? run).map fun v => (v, cs.drop run.length)

end GraphBase.Toml
