import GraphBase.Number.Decimal
import GraphBase.Text.Blank

/-!
# Points in time

A table keeps points in time as texts, and two notations are read back.

* *Plain*: `2024-05-01 12:30:00`, in universal time.  The fields may have fewer digits
  and blanks before them, a year with a sign may have any number of digits, and the
  blanks between date and time may be missing.
* *Offset*: `2024-05-01T12:30:00.25+02:00`.  Every field has its full width, the
  letter between date and time is `T`, `t` or a blank, fractions of a second are
  optional, and the offset is `Z`, `z` or hours and minutes with a sign.

The plain notation is tried first; a text in neither names no point in time.

A leap second, second 60 of a minute, is counted as second 59 with a billion
nanoseconds or more.
-/

namespace GraphBase

open GraphBase.Number GraphBase.Text

/-- A point in time: seconds since the beginning of 1970, and nanoseconds. -/
structure Instant where
  secs : Int
  nanos : Nat
  deriving DecidableEq, Repr, Inhabited

namespace Instant

/-! ## The calendar -/

def isLeapYear (y : Int) : Bool := y % 4 == 0 && (y % 100 != 0 || y % 400 == 0)

def daysInMonth (y : Int) (m : Nat) : Nat :=
  match m with
  | 2 => if isLeapYear y then 29 else 28
  | 4 | 6 | 9 | 11 => 30
  | _ => 31

/-- The days between the beginning of 1970 and a date.  The year is taken to begin in
March, so that a leap day comes last; four centuries have 146097 days. -/
def daysSince1970 (year : Int) (month day : Nat) : Int :=
  let y := if month ≤ 2 then year - 1 else year
  let era := Int.fdiv y 400
  let yearOfEra := y - era * 400
  let monthFromMarch : Int := if month ≤ 2 then month + 9 else (month : Int) - 3
  let dayOfYear := (153 * monthFromMarch + 2) / 5 + day - 1
  let dayOfEra := yearOfEra * 365 + yearOfEra / 4 - yearOfEra / 100 + dayOfYear
  era * 146097 + dayOfEra - 719468

/-- The year, month and day that a number of days after the beginning of 1970 fall on. -/
def dateOfDays (days : Int) : Int × Nat × Nat :=
  let shifted := days + 719468
  let era := Int.fdiv shifted 146097
  let dayOfEra := shifted - era * 146097
  let yearOfEra := (dayOfEra - dayOfEra / 1460 + dayOfEra / 36524 - dayOfEra / 146096) / 365
  let dayOfYear := dayOfEra - (365 * yearOfEra + yearOfEra / 4 - yearOfEra / 100)
  let monthFromMarch := (5 * dayOfYear + 2) / 153
  let day := dayOfYear - (153 * monthFromMarch + 2) / 5 + 1
  let month := if monthFromMarch < 10 then monthFromMarch + 3 else monthFromMarch - 9
  let year := yearOfEra + era * 400 + (if month ≤ 2 then 1 else 0)
  (year, month.toNat, day.toNat)

/-- The point in time of a date and a time of day, if both exist.  Second 60 is a leap
second. -/
def ofFields? (year : Int) (month day hour minute second nanos : Nat) : Option Instant :=
  if -262143 ≤ year ∧ year ≤ 262142 ∧ 1 ≤ month ∧ month ≤ 12 ∧ 1 ≤ day ∧
      day ≤ daysInMonth year month ∧ hour < 24 ∧ minute < 60 ∧ second ≤ 60 then
    let inDay : Int := hour * 3600 + minute * 60 + min second 59
    some ⟨daysSince1970 year month day * 86400 + inDay,
      if second = 60 then nanos + 1000000000 else nanos⟩
  else none

/-! ## Writing -/

/-- A number of at least `width` digits. -/
def padded (width n : Nat) : String :=
  let ds := toDigits n
  String.ofList (List.replicate (width - ds.length) '0' ++ ds)

/-- The plain notation of a number of seconds after the beginning of 1970, which lies in a
year of four digits. -/
def plainText (secs : Int) : String :=
  let days := Int.fdiv secs 86400
  let inDay := (secs - days * 86400).toNat
  let (year, month, day) := dateOfDays days
  padded 4 year.toNat ++ "-" ++ padded 2 month ++ "-" ++ padded 2 day ++ " " ++
    padded 2 (inDay / 3600) ++ ":" ++ padded 2 (inDay / 60 % 60) ++ ":" ++ padded 2 (inDay % 60)

/-! ## Fields of a text -/

/-- A number of `least` to `most` digits at the front of a text. -/
def readNumber (least most : Nat) (cs : List Char) : Option (Nat × List Char) :=
  let ds := (cs.take most).takeWhile isDigit
  if ds.length < least then none else some (ofDigits ds, cs.drop ds.length)

/-- A character at the front of a text. -/
def readChar (c : Char) : List Char → Option (List Char)
  | d :: rest => if d = c then some rest else none
  | [] => none

/-- A year: with a sign any number of digits, without one at most four. -/
def readYear (cs : List Char) : Option (Int × List Char) :=
  match trimLeft cs with
  | '-' :: rest => (readNumber 1 rest.length rest).map fun (n, r) => (-(n : Int), r)
  | '+' :: rest => (readNumber 1 rest.length rest).map fun (n, r) => ((n : Int), r)
  | rest => (readNumber 1 4 rest).map fun (n, r) => ((n : Int), r)

/-- A field of one or two digits, blanks before it allowed. -/
def readField (cs : List Char) : Option (Nat × List Char) := readNumber 1 2 (trimLeft cs)

/-- A text in the plain notation. -/
def readPlain? (cs : List Char) : Option Instant := do
  let (year, cs) ← readYear cs
  let cs ← readChar '-' cs
  let (month, cs) ← readField cs
  let cs ← readChar '-' cs
  let (day, cs) ← readField cs
  let (hour, cs) ← readField cs
  let cs ← readChar ':' cs
  let (minute, cs) ← readField cs
  let cs ← readChar ':' cs
  let (second, cs) ← readField cs
  if cs.isEmpty then ofFields? year month day hour minute second 0 else none

/-- Fractions of a second in nanoseconds; digits after the ninth are dropped. -/
def readFraction (cs : List Char) : Option (Nat × List Char) :=
  match cs with
  | '.' :: rest =>
    match readNumber 1 9 rest with
    | some (n, r) =>
      some (n * tenPow (9 - (rest.length - r.length)), r.dropWhile isDigit)
    | none => none
  | rest => some (0, rest)

/-- An offset from universal time, in seconds. -/
def readOffset (cs : List Char) : Option (Int × List Char) :=
  match cs with
  | 'Z' :: rest | 'z' :: rest => some (0, rest)
  | sign :: rest =>
    if sign = '+' ∨ sign = '-' ∨ sign = '\u2212' then do
      let (hours, rest) ← readNumber 2 2 rest
      let rest ← readChar ':' rest
      let (minutes, rest) ← readNumber 2 2 rest
      if hours < 24 ∧ minutes < 60 then
        let size : Int := hours * 3600 + minutes * 60
        some (if sign = '+' then size else -size, rest)
      else none
    else none
  | [] => none

/-- A text in the notation with an offset. -/
def readWithOffset? (cs : List Char) : Option Instant := do
  let (year, cs) ← readNumber 4 4 cs
  let cs ← readChar '-' cs
  let (month, cs) ← readNumber 2 2 cs
  let cs ← readChar '-' cs
  let (day, cs) ← readNumber 2 2 cs
  let cs ← match cs with
    | 'T' :: rest | 't' :: rest | ' ' :: rest => some rest
    | _ => none
  let (hour, cs) ← readNumber 2 2 cs
  let cs ← readChar ':' cs
  let (minute, cs) ← readNumber 2 2 cs
  let cs ← readChar ':' cs
  let (second, cs) ← readNumber 2 2 cs
  let (nanos, cs) ← readFraction cs
  let (offset, cs) ← readOffset cs
  if cs.isEmpty then
    (ofFields? year month day hour minute second nanos).map fun t =>
      { t with secs := t.secs - offset }
  else none

/-- Reads a point in time in either notation. -/
def parse? (s : String) : Option Instant :=
  match readPlain? s.toList with
  | some t => some t
  | none => readWithOffset? s.toList

end Instant

end GraphBase
