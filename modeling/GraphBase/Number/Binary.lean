import GraphBase.Number.Power

/-!
# Binary interchange formats

Two floating point formats meet in a graph store: property values and distances
are 64 bits wide, embedding components 32.  Both are carried as *bit patterns*.
A pattern is compared, stored and read back exactly, sign of zero and payload of
a NaN included, and the value it stands for is recovered by `Format.unpack`.

## Rounding

`Format.round` takes a positive rational and returns the nearest pattern, a tie
going to the even significand.  It is exact integer arithmetic: scale the
rational by a power of two so that its integer part has the right number of
bits, divide, and look at the remainder.  Widening, narrowing, reading a decimal
text and reading an integer are all instances of it, so the rule of rounding is
stated once.
-/

namespace GraphBase.Number

/-- A binary interchange format, given by the widths of its two fields. -/
structure Format where
  /-- Bits of the significand that are stored (the leading one is not). -/
  fractionBits : Nat
  /-- Bits of the biased exponent. -/
  exponentBits : Nat

/-- Single precision. -/
def binary32 : Format := ⟨23, 8⟩

/-- Double precision. -/
def binary64 : Format := ⟨52, 11⟩

namespace Format

/-- What a bit pattern stands for.  A finite pattern is `± significand * 2 ^ exponent`. -/
inductive Unpacked where
  | nan
  | infinite (negative : Bool)
  | finite (negative : Bool) (significand : Nat) (exponent : Int)
  deriving DecidableEq

/-- The largest biased exponent, reserved for infinities and NaNs. -/
def topExponent (f : Format) : Nat := twoPow f.exponentBits - 1

/-- The exponent of the unit in the last place of the smallest patterns. -/
def leastExponent (f : Format) : Int :=
  2 - twoPow (f.exponentBits - 1) - f.fractionBits

/-- The bit that carries the sign. -/
def signBit (f : Format) : Nat := twoPow (f.fractionBits + f.exponentBits)

/-- The pattern of positive infinity. -/
def infinity (f : Format) : Nat := f.topExponent <<< f.fractionBits

/-- Reads a pattern. -/
def unpack (f : Format) (bits : Nat) : Unpacked :=
  let negative := f.signBit ≤ bits
  let fraction := bits % twoPow f.fractionBits
  let biased := bits / twoPow f.fractionBits % twoPow f.exponentBits
  if biased = f.topExponent then
    if fraction = 0 then .infinite negative else .nan
  else if biased = 0 then .finite negative fraction f.leastExponent
  else .finite negative (twoPow f.fractionBits + fraction) (f.leastExponent + biased - 1)

/-- Numerical comparison, `none` if either is no number.  An infinity is beyond every finite number
and the two zeros are equal. -/
def Unpacked.compare? (u v : Unpacked) : Option Ordering :=
  match u, v with
  | .nan, _ => none
  | _, .nan => none
  | .infinite a, .infinite b => some (if a = b then .eq else if a then .lt else .gt)
  | .infinite a, _ => some (if a then .lt else .gt)
  | _, .infinite b => some (if b then .gt else .lt)
  | .finite a m e, .finite b n d =>
    let least := min e d
    let signed (negative : Bool) (significand : Nat) (exponent : Int) : Int :=
      let size : Int := significand * twoPow (exponent - least).toNat
      if negative then -size else size
    some (compare (signed a m e) (signed b n d))

/-- Sets the sign of a pattern whose sign bit is clear. -/
def withSign (f : Format) (negative : Bool) (magnitude : Nat) : Nat :=
  if negative then f.signBit + magnitude else magnitude

/-- The nearest integer to `num / den`, a tie going to the even one. -/
def roundDiv (num den : Nat) : Nat :=
  let q := num / den
  let r := num % den
  if 2 * r > den || (2 * r == den && q % 2 == 1) then q + 1 else q

/-- `num / den / 2 ^ e` as a quotient of naturals. -/
def scaleDown (num den : Nat) (e : Int) : Nat × Nat :=
  match e with
  | .ofNat n => (num, den * twoPow n)
  | .negSucc n => (num * twoPow (n + 1), den)

/-- The exponent at which `num / den` is rounded: the one that leaves exactly
`fractionBits + 1` bits before the point, or the least one of the format. -/
def roundingExponent (f : Format) (num den : Nat) : Int :=
  let guess : Int := max ((num.log2 : Int) - den.log2 - (f.fractionBits + 1)) f.leastExponent
  let (n, d) := scaleDown num den guess
  if twoPow (f.fractionBits + 1) ≤ n / d then guess + 1 else guess

/-- The magnitude of the pattern nearest to `num / den`.  The significand and the
biased exponent lie side by side, so a carry out of the significand moves to the
next exponent by plain addition, and a carry out of the last exponent arrives at
infinity. -/
def roundMagnitude (f : Format) (num den : Nat) : Nat :=
  if num = 0 || den = 0 then 0
  else
    let e := f.roundingExponent num den
    let (n, d) := scaleDown num den e
    let significand := roundDiv n d
    let below := (e - f.leastExponent).toNat <<< f.fractionBits
    min (below + significand) f.infinity

/-- The pattern nearest to `± num / den`. -/
def round (f : Format) (negative : Bool) (num den : Nat) : Nat :=
  f.withSign negative (f.roundMagnitude num den)

end Format

/-! ## Double precision -/

/-- A double precision number, as its bit pattern. -/
structure Binary64 where
  bits : UInt64
  deriving DecidableEq, Inhabited

namespace Binary64

/-- The value of a pattern. -/
def unpack (x : Binary64) : Format.Unpacked := binary64.unpack x.bits.toNat

/-- The pattern nearest to a rational. -/
def ofRatio (negative : Bool) (num den : Nat) : Binary64 :=
  ⟨(binary64.round negative num den).toUInt64⟩

/-- The pattern nearest to an integer. -/
def ofInt (i : Int) : Binary64 := ofRatio (i < 0) i.natAbs 1

/-- The number as the machine computes with it. -/
def toFloat (x : Binary64) : Float := Float.ofBits x.bits

/-- Zero, infinity and the NaN without a payload, each with a sign. -/
def zero (negative : Bool) : Binary64 := ⟨if negative then 0x8000000000000000 else 0⟩

@[inherit_doc zero]
def infinity (negative : Bool) : Binary64 :=
  ⟨if negative then 0xFFF0000000000000 else 0x7FF0000000000000⟩

@[inherit_doc zero]
def quietNaN (negative : Bool) : Binary64 :=
  ⟨if negative then 0xFFF8000000000000 else 0x7FF8000000000000⟩

/-- A computed number.  Arithmetic that has no answer yields the negative NaN. -/
def ofFloat (x : Float) : Binary64 := if x.isNaN then quietNaN true else ⟨x.toBits⟩

def isNaN (x : Binary64) : Bool := x.unpack == .nan

def isNegative (x : Binary64) : Bool := 0x8000000000000000 ≤ x.bits

def isFinite (x : Binary64) : Bool :=
  match x.unpack with
  | .finite .. => true
  | _ => false

def isInfinite (x : Binary64) : Bool :=
  match x.unpack with
  | .infinite _ => true
  | _ => false

/-- Numerical comparison of two patterns. -/
def compare? (x y : Binary64) : Option Ordering := x.unpack.compare? y.unpack

/-- Numerical comparison with an integer, exact at any size. -/
def compareInt? (x : Binary64) (i : Int) : Option Ordering :=
  match x.unpack with
  | .nan => none
  | .infinite negative => some (if negative then .lt else .gt)
  | .finite negative m e =>
    let value : Int := if negative then -(m : Int) else m
    match e with
    | .ofNat n => some (compare (value * twoPow n) i)
    | .negSucc n => some (compare value (i * twoPow (n + 1)))

/-- The integer that a pattern stands for, if it stands for one. -/
def toInt? (x : Binary64) : Option Int :=
  match x.unpack with
  | .finite negative m e =>
    let size : Option Nat := match e with
      | .ofNat n => some (m * twoPow n)
      | .negSucc n => if m % twoPow (n + 1) = 0 then some (m / twoPow (n + 1)) else none
    size.map fun n => if negative then -(n : Int) else n
  | _ => none

/-! ### Products and quotients

These are of numbers that are finite and not negative. -/

/-- The number as a quotient of naturals. -/
def ratio (x : Binary64) : Nat × Nat :=
  match x.unpack with
  | .finite _ m e => match e with
    | .ofNat n => (m * twoPow n, 1)
    | .negSucc n => (m, twoPow (n + 1))
  | _ => (0, 1)

/-- The product, rounded. -/
def mul (x y : Binary64) : Binary64 :=
  .ofRatio false (x.ratio.1 * y.ratio.1) (x.ratio.2 * y.ratio.2)

/-- The quotient, rounded. -/
def div (x y : Binary64) : Binary64 :=
  .ofRatio false (x.ratio.1 * y.ratio.2) (x.ratio.2 * y.ratio.1)

/-- The number with the other sign. -/
def negate (x : Binary64) : Binary64 := ⟨x.bits ^^^ 0x8000000000000000⟩

end Binary64

/-! ## Single precision -/

/-- A single precision number, as its bit pattern. -/
structure Binary32 where
  bits : UInt32
  deriving DecidableEq, Inhabited

namespace Binary32

/-- The value of a pattern. -/
def unpack (x : Binary32) : Format.Unpacked := binary32.unpack x.bits.toNat

/-- Numerical comparison of two patterns. -/
def compare? (x y : Binary32) : Option Ordering := x.unpack.compare? y.unpack

/-- The pattern nearest to a rational. -/
def ofRatio (negative : Bool) (num den : Nat) : Binary32 :=
  ⟨(binary32.round negative num den).toUInt32⟩

/-- The pattern nearest to an integer. -/
def ofInt (i : Int) : Binary32 := ofRatio (i < 0) i.natAbs 1

/-- The nearest single precision number; beyond the largest lies infinity. -/
def ofBinary64 (x : Binary64) : Binary32 :=
  match x.unpack with
  | .nan => ⟨if x.isNegative then 0xFFC00000 else 0x7FC00000⟩
  | .infinite negative => ⟨if negative then 0xFF800000 else 0x7F800000⟩
  | .finite negative m e =>
    match e with
    | .ofNat n => ofRatio negative (m * twoPow n) 1
    | .negSucc n => ofRatio negative m (twoPow (n + 1))

/-- The same number in double precision: every single precision number is one. -/
def toBinary64 (x : Binary32) : Binary64 :=
  match x.unpack with
  | .nan => .quietNaN (0x80000000 ≤ x.bits)
  | .infinite negative => .infinity negative
  | .finite negative m e =>
    match e with
    | .ofNat n => .ofRatio negative (m * twoPow n) 1
    | .negSucc n => .ofRatio negative m (twoPow (n + 1))

end Binary32

end GraphBase.Number
