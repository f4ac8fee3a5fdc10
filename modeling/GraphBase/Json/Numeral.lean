import GraphBase.Number.Notation

/-!
# Numbers in a JSON text

A JSON text writes a number as a sign, an integer without leading zeros, an
optional fraction and an optional exponent.  `Numeral` keeps exactly these parts,
so that a text can be read without deciding yet what the number is good for: a
property tells integers from floating point numbers by their spelling, and
`2`, `2.0` and `2e0` are three different numerals.

## Writing

A floating point number is written with the fewest digits that read back, always
with a fraction or an exponent, so that it is never mistaken for an integer.  Inside
a window of leading exponents it is positional, outside it has an exponent; the
window depends on the precision (`DataLayout`).

## Reading

`toBinary64?` computes the number in double precision: the digits are gathered into
one unsigned word of 64 bits, and the word is multiplied or divided by one power of
ten.  Digits that no longer fit the word are dropped.  A numeral whose value lies
beyond the largest finite number has no reading; one below the smallest is zero.
-/

namespace GraphBase.Json

open GraphBase.Number

/-- The parts of a written number.  Without fraction digits no point is written. -/
structure Numeral where
  negative : Bool
  whole : Nat
  fraction : List Char
  exponent : Option Int
  deriving DecidableEq, Repr, Inhabited

namespace Numeral

/-- A numeral that is spelled as an integer. -/
def isInteger (n : Numeral) : Bool := n.fraction.isEmpty && n.exponent.isNone

/-- The numeral of an integer. -/
def ofInt (i : Int) : Numeral := ⟨i < 0, i.natAbs, [], none⟩

/-- The written form of an exponent: its sign is always present. -/
def exponentText : Option Int → List Char
  | none => []
  | some e => 'e' :: (if e < 0 then '-' else '+') :: toDigits e.natAbs

/-- The written form. -/
def toChars (n : Numeral) : List Char :=
  (if n.negative then ['-'] else []) ++ toDigits n.whole ++
    (if n.fraction.isEmpty then [] else '.' :: n.fraction) ++ exponentText n.exponent

/-! ## Writing floating point numbers -/

/-- Positional for leading exponents from `least` to `most`, with an exponent beyond. -/
structure DataLayout where
  least : Int
  most : Int

/-- Double precision is positional from `0.00001` up to sixteen digits. -/
def doubleLayout : DataLayout := ⟨-5, 15⟩

/-- Single precision is positional from `0.000001` up to thirteen digits. -/
def singleLayout : DataLayout := ⟨-6, 12⟩

/-- A number of `count` digits, leading zeros included. -/
def padDigits (count n : Nat) : List Char :=
  let ds := toDigits n
  zeros (count - ds.length) ++ ds

/-- The numeral of a decimal number in a layout. -/
def DataLayout.numeral (layout : DataLayout) (negative : Bool) (d : Decimal) : Numeral :=
  let count : Int := digitCount d.digits
  let leading := count + d.exponent - 1
  if d.digits = 0 then ⟨negative, 0, ['0'], none⟩
  else if layout.least ≤ leading ∧ leading ≤ layout.most then
    match d.exponent with
    | .ofNat n => ⟨negative, d.digits * tenPow n, ['0'], none⟩
    | .negSucc n =>
      ⟨negative, d.digits / tenPow (n + 1), padDigits (n + 1) (d.digits % tenPow (n + 1)), none⟩
  else
    let ds := toDigits d.digits
    ⟨negative, ofDigits (ds.take 1), ds.drop 1, some leading⟩

/-- The numeral of a finite pattern; infinities and NaNs have none. -/
def ofUnpacked? (f : Format) (layout : DataLayout) : Format.Unpacked → Option Numeral
  | .finite negative m e => some (layout.numeral negative (shortest f m e))
  | _ => none

/-- The numeral of a double precision number, `none` unless it is finite. -/
def ofBinary64? (x : Binary64) : Option Numeral := ofUnpacked? binary64 doubleLayout x.unpack

/-- The numeral of a single precision number, `none` unless it is finite. -/
def ofBinary32? (x : Binary32) : Option Numeral := ofUnpacked? binary32 singleLayout x.unpack

/-! ## Reading -/

/-- The largest unsigned word. -/
def wordMax : Nat := 0xFFFFFFFFFFFFFFFF

/-- Gathers integer digits into a word.  The second number counts the digits that came
after the word was full. -/
def gatherWhole : List Char → Nat → Nat × Nat
  | [], word => (word, 0)
  | c :: cs, word =>
    if word * 10 + digitValue c ≤ wordMax then gatherWhole cs (word * 10 + digitValue c)
    else (word, cs.length + 1)

/-- Goes on with fraction digits.  The second number counts the digits that were taken;
the first one that does not fit ends the gathering. -/
def gatherFraction : List Char → Nat → Nat × Nat
  | [], word => (word, 0)
  | c :: cs, word =>
    if word * 10 + digitValue c ≤ wordMax then
      let (w, taken) := gatherFraction cs (word * 10 + digitValue c)
      (w, taken + 1)
    else (word, 0)

/-- A power of ten in double precision, for exponents up to `308`. -/
def powerOfTen (n : Nat) : Binary64 := .ofRatio false (tenPow n) 1

/-- `x * 10 ^ e`, computed by one multiplication or division.  Beyond the table of powers
a large exponent has no answer and a small one is approached in steps of `308`, of which
the third arrives at zero; `fuel` counts the steps. -/
def scale (fuel : Nat) (x : Binary64) (e : Int) : Option Binary64 :=
  if e.natAbs ≤ 308 then
    match e with
    | .ofNat n =>
      let y := x.mul (powerOfTen n)
      if y.isInfinite then none else some y
    | .negSucc n => some (x.div (powerOfTen (n + 1)))
  else if x = .zero false then some x
  else
    match fuel, e with
    | fuel + 1, .negSucc _ => scale fuel (x.div (powerOfTen 308)) (e + 308)
    | 0, .negSucc _ => some (.zero false)
    | _, .ofNat _ => none

/-- The double precision number that a numeral writes, `none` if it is too large. -/
def toBinary64? (n : Numeral) : Option Binary64 :=
  let (word, skipped) := gatherWhole (toDigits n.whole) 0
  let (word, taken) := gatherFraction n.fraction word
  let e : Int := (skipped : Int) - taken + n.exponent.getD 0
  (scale 4 (.ofRatio false word 1) e).map fun x => if n.negative then x.negate else x

/-- The integer that a numeral spells, if it is spelled as one.  `-0` is not an integer:
its sign would be lost. -/
def toInt? (n : Numeral) : Option Int :=
  if n.isInteger then
    if n.negative then (if n.whole = 0 then none else some (-(n.whole : Int)))
    else some n.whole
  else none

/-- The single precision number that a numeral writes.  An integer within the words is
rounded once; all else passes through double precision. -/
def toBinary32? (n : Numeral) : Option Binary32 :=
  match n.toInt? with
  | some i =>
    if -0x8000000000000000 ≤ i ∧ i ≤ wordMax then some (Binary32.ofInt i)
    else n.toBinary64?.map Binary32.ofBinary64
  | none => n.toBinary64?.map Binary32.ofBinary64

/-- Takes the digits at the front. -/
def takeDigits (cs : List Char) : List Char × List Char :=
  (cs.takeWhile isDigit, cs.dropWhile isDigit)

/-- Reads an exponent, if one stands at the front; a bare `e` is malformed. -/
def readExponent : List Char → Option (Option Int × List Char)
  | 'e' :: rest | 'E' :: rest =>
    let (negative, rest) := match rest with
      | '-' :: r => (true, r)
      | '+' :: r => (false, r)
      | r => (false, r)
    match takeDigits rest with
    | ([], _) => none
    | (ds, rest) =>
      let e : Int := ofDigits ds
      some (some (if negative then -e else e), rest)
  | rest => some (none, rest)

/-- Reads a fraction, if a point stands at the front; a bare point is malformed. -/
def readFraction : List Char → Option (List Char × List Char)
  | '.' :: rest =>
    match takeDigits rest with
    | ([], _) => none
    | (ds, rest) => some (ds, rest)
  | rest => some ([], rest)

/-- Reads the integer part: a single zero, or digits that do not start with one. -/
def readWhole : List Char → Option (Nat × List Char)
  | '0' :: rest => some (0, rest)
  | cs =>
    match takeDigits cs with
    | ([], _) => none
    | (ds, rest) => some (ofDigits ds, rest)

/-- Reads a numeral at the front of a text. -/
def read (cs : List Char) : Option (Numeral × List Char) :=
  let (negative, cs) := match cs with
    | '-' :: rest => (true, rest)
    | rest => (false, rest)
  match readWhole cs with
  | none => none
  | some (whole, cs) =>
    match readFraction cs with
    | none => none
    | some (fraction, cs) =>
      match readExponent cs with
      | none => none
      | some (exponent, cs) => some (⟨negative, whole, fraction, exponent⟩, cs)

end Numeral

end GraphBase.Json
