import GraphBase.Number.Decimal

/-!
# Conversions in extended precision

A database converts between decimal texts and double precision numbers in *extended*
precision, whose significand has 64 bits.  It multiplies by powers of ten in a few steps
and rounds after each of them, so the outcome may be off in the last place: a text need not
become the nearest number, and the digits of a number need not be its first ones.  That is
why a number and its written form may differ where the database compares the two.

## Steps

The powers of the steps are the hundredth, the tenth and the first, for as long as each of
them applies, and their inverses.  An inverse is rounded to extended precision before it is
used.  The range of exponents plays no part, because a result far outside of the range of
double precision is an infinity or a zero anyway.

## From a text

`Gathered.toBinary64` takes the digits of a text as one word of 64 bits and an exponent.
It first makes the exponent as small as the word allows, then takes its steps, and then
rounds to double precision.

## To digits

`Extended.decimal` takes steps until the number lies between `10 ^ 17` and `10 ^ 19`, and
cuts off what is behind the point.  `Decimal.roundTo` rounds these digits to fewer, a half
going up.
-/

namespace GraphBase.Number

/-- A number in extended precision, `significand * 2 ^ exponent`. -/
structure Extended where
  significand : Nat
  exponent : Int
  deriving DecidableEq, Inhabited

namespace Extended

/-- The bits of a significand. -/
def precision : Nat := 64

/-- The nearest number with a significand of 64 bits, a tie going to the even one. -/
def rounded (significand : Nat) (exponent : Int) : Extended :=
  let extra := significand.log2 + 1 - precision
  ⟨Format.roundDiv significand (twoPow extra), exponent + extra⟩

/-- The nearest number to a positive rational. -/
def ofRatio (num den : Nat) : Extended :=
  let guess : Int := (num.log2 : Int) - den.log2 - precision
  let (n, d) := Format.scaleDown num den guess
  let e := if twoPow precision ≤ n / d then guess + 1 else guess
  let (n, d) := Format.scaleDown num den e
  ⟨Format.roundDiv n d, e⟩

/-- A power of ten. -/
def tenTo : Int → Extended
  | .ofNat n => rounded (tenPow n) 0
  | .negSucc n => ofRatio 1 (tenPow (n + 1))

/-- The product, rounded. -/
def mul (x y : Extended) : Extended :=
  rounded (x.significand * y.significand) (x.exponent + y.exponent)

/-- Whether one number is less than another one. -/
def lt (x y : Extended) : Bool :=
  let least := min x.exponent y.exponent
  x.significand * twoPow (x.exponent - least).toNat <
    y.significand * twoPow (y.exponent - least).toNat

/-- The natural number that is left when everything behind the point is cut off. -/
def floor (x : Extended) : Nat :=
  match x.exponent with
  | .ofNat n => x.significand * twoPow n
  | .negSucc n => x.significand / twoPow (n + 1)

/-- The largest number in double precision. -/
def largestBinary64 : Extended := ⟨twoPow 53 - 1, 971⟩

/-- The nearest number in double precision; everything beyond the largest one is infinity. -/
def toBinary64 (negative : Bool) (x : Extended) : Binary64 :=
  if largestBinary64.lt x then .infinity negative
  else
    match x.exponent with
    | .ofNat n => .ofRatio negative (x.significand * twoPow n) 1
    | .negSucc n => .ofRatio negative x.significand (twoPow (n + 1))

/-! ## Steps -/

/-- Multiplies by a power of ten, a hundred, ten or one place at a time. -/
def scale (fuel : Nat) (x : Extended) (e : Int) : Extended :=
  match fuel with
  | 0 => x
  | fuel + 1 =>
    if e = 0 then x
    else
      let sign := e.sign
      let step : Int := if 100 ≤ e.natAbs then 100 else if 10 ≤ e.natAbs then 10 else 1
      scale fuel (x.mul (tenTo (sign * step))) (e - sign * step)

/-- Divides by ten to the power of `step` as long as the number is not less than a bound; the
second number counts the places. -/
def lower (bound : Extended) (step : Nat) : Nat → Extended × Int → Extended × Int
  | 0, x => x
  | fuel + 1, (x, places) =>
    if x.lt bound then (x, places)
    else lower bound step fuel (x.mul (tenTo (-step)), places + step)

/-- Multiplies by ten to the power of `step` as long as the number is less than a bound. -/
def raise (bound : Extended) (step : Nat) : Nat → Extended × Int → Extended × Int
  | 0, x => x
  | fuel + 1, (x, places) =>
    if x.lt bound then raise bound step fuel (x.mul (tenTo step), places - step)
    else (x, places)

/-- The first digits of a positive number, seventeen to nineteen of them. -/
def decimal (x : Extended) : Decimal :=
  let (y, places) :=
    if x.lt (tenTo 19) then
      raise (tenTo 17) 1 20 (raise (tenTo 7) 10 20 (raise (tenTo (-97)) 100 20 (x, 0)))
    else
      lower (tenTo 19) 1 20 (lower (tenTo 29) 10 20 (lower (tenTo 119) 100 20 (x, 0)))
  ⟨y.floor, places⟩

end Extended

/-- The first `count` digits of a decimal number, rounded by the digit after them: from five
on, up. -/
def Decimal.roundTo (count : Nat) (d : Decimal) : Decimal :=
  let extra := digitCount d.digits - count
  if extra = 0 then d
  else
    let cut := tenPow extra
    let up := 5 ≤ d.digits / tenPow (extra - 1) % 10
    ⟨if up then d.digits / cut + 1 else d.digits / cut, d.exponent + extra⟩

/-! ## From a text -/

/-- The digits of a text as a word, and the power of ten that goes with it. -/
structure Gathered where
  word : Nat
  exponent : Int
  deriving DecidableEq, Inhabited

namespace Gathered

/-- A word from here on has no room for another digit. -/
def full : Nat := 1844674407370955160

/-- Digits before the point; those for which there is no room count as zeros. -/
def addWhole (g : Gathered) (c : Char) : Gathered :=
  if g.word < full then { g with word := g.word * 10 + digitValue c }
  else { g with exponent := g.exponent + 1 }

/-- Digits behind the point; those for which there is no room are dropped. -/
def addFraction (g : Gathered) (c : Char) : Gathered :=
  if g.word < full then ⟨g.word * 10 + digitValue c, g.exponent - 1⟩ else g

/-- The largest exponent that is told from larger ones. -/
def farExponent : Nat := 10000

/-- The digits of an exponent.  A number of five digits is the last one to be taken whole. -/
def exponentOf (digits : List Char) : Nat :=
  digits.foldl (fun e c => if e < farExponent then e * 10 + digitValue c else farExponent) 0

/-- The digits of a text, given its three parts. -/
def ofParts (whole fraction : List Char) (negativeExponent : Bool) (exponent : List Char) :
    Gathered :=
  let g := fraction.foldl addFraction (whole.foldl addWhole ⟨0, 0⟩)
  let e : Int := exponentOf exponent
  { g with exponent := g.exponent + if negativeExponent then -e else e }

/-- Moves as much of a positive exponent into the word as there is room for, and trailing
zeros of the word into a negative one. -/
def settle : Nat → Gathered → Gathered
  | 0, g => g
  | fuel + 1, g =>
    if 0 < g.exponent ∧ g.word < 1844674407370955161 then
      settle fuel ⟨g.word * 10, g.exponent - 1⟩
    else if g.exponent < 0 ∧ g.word % 10 = 0 then settle fuel ⟨g.word / 10, g.exponent + 1⟩
    else g

/-- The number in double precision that a database reads. -/
def toBinary64 (negative : Bool) (g : Gathered) : Binary64 :=
  if g.word = 0 then .zero negative
  else
    let s := g.settle 40
    let steps := s.exponent.natAbs / 100 + 20
    (Extended.scale steps (Extended.rounded s.word 0) s.exponent).toBinary64 negative

end Gathered

/-! ## To digits -/

/-- The fifteen significant digits that a database shows of a positive number
`significand * 2 ^ exponent`. -/
def significant15 (significand : Nat) (exponent : Int) : Decimal :=
  (((⟨significand, exponent⟩ : Extended).decimal).roundTo 15).stripZeros 20

end GraphBase.Number
