import GraphBase.Number.Extended

/-!
# How numbers are written

One number is written in several ways, depending on who reads it.

* *Display* is for people: the shortest digits, never an exponent, no point
  after a whole number.
* *Fixed* is for a table of distances: a set count of places after the point.
* *Column* is for a text column that is handed a number: fifteen significant
  digits, found in extended precision.

The fourth notation, that of a JSON text, has a module of its own, because it is
also read back (`Json.Numeral`).
-/

namespace GraphBase.Number

/-- `n` zeros. -/
def zeros (n : Nat) : List Char := List.replicate n '0'

/-- Digits with the point after the first `whole` of them; zeros fill up on either side.
No point is written when nothing follows it. -/
def placePoint (digits : List Char) (whole : Int) : List Char :=
  match whole with
  | .ofNat 0 => '0' :: '.' :: digits
  | .ofNat n =>
    if digits.length ≤ n then digits ++ zeros (n - digits.length)
    else digits.take n ++ '.' :: digits.drop n
  | .negSucc n => '0' :: '.' :: zeros (n + 1) ++ digits

/-- An integer, with a minus sign if it is negative. -/
def integerText (i : Int) : String :=
  String.ofList (if i < 0 then '-' :: toDigits i.natAbs else toDigits i.natAbs)

/-- Digits with a point among them, or with `.0` behind them. -/
def pointed (digits : List Char) (whole : Int) : List Char :=
  let cs := placePoint digits whole
  if cs.contains '.' then cs else cs ++ ['.', '0']

/-- A minus sign, if one is due. -/
def signed (negative : Bool) (digits : List Char) : String :=
  String.ofList (if negative then '-' :: digits else digits)

/-! ## Display -/

/-- Positional layout without an exponent and without a bare point. -/
def Decimal.positional (d : Decimal) : List Char :=
  let ds := toDigits d.digits
  placePoint ds (ds.length + d.exponent)

/-- The display text of an unpacked number. -/
def displayUnpacked (f : Format) : Format.Unpacked → String
  | .nan => "NaN"
  | .infinite negative => if negative then "-inf" else "inf"
  | .finite negative m e =>
    signed negative (if m = 0 then ['0'] else (shortest f m e).positional)

/-- The display text: shortest digits, never an exponent. -/
def Binary64.display (x : Binary64) : String := displayUnpacked binary64 x.unpack

/-! ## Fixed -/

/-- A rational with `places` digits after the point, a tie going to the even digit. -/
def fixedRatio (places num den : Nat) : List Char :=
  let ds := toDigits (Format.roundDiv (num * tenPow places) den)
  let padded := zeros (places + 1 - ds.length) ++ ds
  let whole := padded.length - places
  padded.take whole ++ (if places = 0 then [] else '.' :: padded.drop whole)

/-- A number with a fixed count of digits after the point. -/
def fixedUnpacked (places : Nat) : Format.Unpacked → String
  | .nan => "NaN"
  | .infinite negative => if negative then "-inf" else "inf"
  | .finite negative m e =>
    signed negative (match e with
      | .ofNat n => fixedRatio places (m * twoPow n) 1
      | .negSucc n => fixedRatio places m (twoPow (n + 1)))

/-- A single precision number with a fixed count of digits after the point. -/
def Binary32.fixed (places : Nat) (x : Binary32) : String := fixedUnpacked places x.unpack

/-! ## Column -/

/-- A number as a text column keeps it: fifteen significant digits, positional for
leading exponents from `-4` to `14`, otherwise with an exponent of at least two digits. -/
def columnUnpacked : Format.Unpacked → String
  | .nan => ""
  | .infinite negative => if negative then "-Inf" else "Inf"
  | .finite negative m e =>
    if m = 0 then "0.0"
    else
      let d := significant15 m e
      let ds := toDigits d.digits
      let leading : Int := ds.length + d.exponent - 1
      signed negative <|
        if -4 ≤ leading && leading ≤ 14 then pointed ds (leading + 1)
        else
          let power := toDigits leading.natAbs
          pointed ds 1 ++ 'e' :: (if leading < 0 then '-' else '+') ::
            (zeros (2 - power.length) ++ power)

/-- The text of a number in a text column. -/
def Binary64.column (x : Binary64) : String := columnUnpacked x.unpack

end GraphBase.Number
