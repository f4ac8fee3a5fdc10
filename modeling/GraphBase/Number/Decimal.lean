import GraphBase.Number.Binary

/-!
# Decimal numbers

A decimal number is a digit string with an exponent: `digits * 10 ^ exponent`.
This module goes both ways between decimal numbers and bit patterns.

## From decimal to binary

`Decimal.toBinary64` rounds to the nearest pattern.  Exponents are unbounded in
a text, so the two ends are cut off first: above `10 ^ 310` everything rounds to
infinity, below `10 ^ -330` everything rounds to zero, and only between them is
a power of ten computed.

## From binary to decimal

`shortest` finds the fewest digits that read back.  The reals that round to a
pattern form an interval around its value, with its ends included exactly when
the significand is even.  A grid of `n` significant digits meets that interval
exactly if one of the value's two neighbours on the grid does, so the first `n`
with a neighbour inside is the least possible, and of two neighbours inside the
nearer one is taken (the even one on a tie).
-/

namespace GraphBase.Number

/-- A nonnegative decimal number, `digits * 10 ^ exponent`. -/
structure Decimal where
  digits : Nat
  exponent : Int
  deriving DecidableEq, Repr, Inhabited

/-- The value of a decimal digit. -/
def digitValue (c : Char) : Nat := c.toNat - '0'.toNat

/-- An ASCII decimal digit. -/
def isDigit (c : Char) : Bool := '0' ≤ c && c ≤ '9'

/-- The number that a digit string writes. -/
def ofDigits (cs : List Char) : Nat := cs.foldl (fun n c => 10 * n + digitValue c) 0

/-- The digit string of a number, without leading zeros (zero is `0`). -/
def toDigits (n : Nat) : List Char := Nat.toDigits 10 n

/-- How many digits a number has. -/
def digitCount (n : Nat) : Nat := (toDigits n).length

/-- `num / den` is at least `10 ^ e`. -/
def reachesPower (num den : Nat) (e : Int) : Bool :=
  match e with
  | .ofNat n => tenPow n * den ≤ num
  | .negSucc n => den ≤ num * tenPow (n + 1)

/-- The exponent of the first digit of a positive rational: the largest `e` with
`10 ^ e ≤ num / den`.  The binary logarithm determines it up to one. -/
def leadingExponent (num den : Nat) : Int :=
  let guess : Int := ((num.log2 : Int) - den.log2) * 30103 / 100000
  if reachesPower num den (guess + 1) then guess + 1
  else if reachesPower num den guess then guess
  else guess - 1

/-- `num / den / 10 ^ e` as a quotient of naturals. -/
def scaleDecimal (num den : Nat) (e : Int) : Nat × Nat :=
  match e with
  | .ofNat n => (num, den * tenPow n)
  | .negSucc n => (num * tenPow (n + 1), den)

namespace Decimal

/-- The pattern nearest to a decimal number. -/
def toBinary64 (negative : Bool) (d : Decimal) : Binary64 :=
  let size : Int := digitCount d.digits + d.exponent
  if d.digits = 0 || size < -330 then .zero negative
  else if 310 < size then .infinity negative
  else
    match d.exponent with
    | .ofNat n => .ofRatio negative (d.digits * tenPow n) 1
    | .negSucc n => .ofRatio negative d.digits (tenPow (n + 1))

/-- Moves trailing zeros of the digits into the exponent.  `fuel` bounds the number of
zeros. -/
def stripZeros (fuel : Nat) (d : Decimal) : Decimal :=
  match fuel with
  | 0 => d
  | fuel + 1 =>
    if d.digits ≠ 0 ∧ d.digits % 10 = 0 then stripZeros fuel ⟨d.digits / 10, d.exponent + 1⟩
    else d

end Decimal

/-! ## The fewest digits that read back -/

/-- The interval of reals that round to a pattern, over a common denominator. -/
structure RoundingInterval where
  low : Nat
  value : Nat
  high : Nat
  den : Nat
  /-- Whether the two ends round to the pattern as well. -/
  closed : Bool

/-- The interval around `significand * 2 ^ exponent`.  Below a power of two the
neighbouring pattern is only half as far away, except at the least exponent. -/
def RoundingInterval.around (f : Format) (significand : Nat) (exponent : Int) :
    RoundingInterval :=
  let narrow := significand = twoPow f.fractionBits && f.leastExponent < exponent
  let low := if narrow then 4 * significand - 1 else 4 * significand - 2
  let closed := significand % 2 == 0
  match exponent with
  | .ofNat n =>
    let s := twoPow n
    ⟨low * s, 4 * significand * s, (4 * significand + 2) * s, 4, closed⟩
  | .negSucc n =>
    ⟨low, 4 * significand, 4 * significand + 2, 4 * twoPow (n + 1), closed⟩

/-- Whether `n / d` (over the interval's own scale) lies inside. -/
def RoundingInterval.contains (i : RoundingInterval) (num den : Nat) : Bool :=
  let n := num * i.den
  let low := i.low * den
  let high := i.high * den
  if i.closed then low ≤ n && n ≤ high else low < n && n < high

/-- The neighbour of the value on the grid `10 ^ step` that reads back, if one does:
the nearer of the two, the even one on a tie. -/
def RoundingInterval.onGrid? (i : RoundingInterval) (step : Int) : Option Decimal :=
  let (n, d) := scaleDecimal i.value i.den step
  let below := n / d
  let above := if n % d = 0 then below else below + 1
  let inside (k : Nat) : Bool :=
    match step with
    | .ofNat e => i.contains (k * tenPow e) 1
    | .negSucc e => i.contains k (tenPow (e + 1))
  let hasBelow := inside below
  let hasAbove := inside above
  if hasBelow && hasAbove then some ⟨Format.roundDiv n d, step⟩
  else if hasBelow then some ⟨below, step⟩
  else if hasAbove then some ⟨above, step⟩
  else none

/-- Tries the grids of `count`, `count + 1`, … significant digits. -/
def RoundingInterval.search (i : RoundingInterval) (leading : Int) (count : Nat) :
    Nat → Decimal
  | 0 => ⟨i.value / i.den, 0⟩
  | fuel + 1 =>
    match i.onGrid? (leading - count + 1) with
    | some d => d
    | none => i.search leading (count + 1) fuel

/-- The fewest digits that read back as `significand * 2 ^ exponent`; seventeen
always suffice. -/
def shortest (f : Format) (significand : Nat) (exponent : Int) : Decimal :=
  if significand = 0 then ⟨0, 0⟩
  else
    let i := RoundingInterval.around f significand exponent
    (i.search (leadingExponent i.value i.den) 1 17).stripZeros 20

end GraphBase.Number
