import GraphBase.Number.DecimalText
import GraphBase.Text.Find
import GraphBase.Value.Scalar

/-!
# What columns keep

A column may prefer a kind of cells, and turns what it is handed into that kind where nothing
is lost.  A column of texts writes numbers out (`Cell.inTextColumn`).  A column of numbers reads
a text that is a number as a whole, blanks around it aside, and keeps a floating point number
that is an integer as the integer (`Cell.inNumberColumn`).  Anything else is kept as it comes.
-/

namespace GraphBase.Cell

open GraphBase.Number

/-- The blanks around a number. -/
def isBlank (c : Char) : Bool := c == ' ' || (9 ≤ c.toNat && c.toNat ≤ 13)

/-- The characters without the blanks at either end. -/
def trimBlanks (cs : List Char) : List Char :=
  ((cs.dropWhile isBlank).reverse.dropWhile isBlank).reverse

/-- A number in double precision, or the integer that it is.  The two integers at the ends of
the range do not count. -/
def ofReal (x : Binary64) : Cell :=
  match x.toInt? with
  | some i =>
    if -0x8000000000000000 < i ∧ i < 0x7FFFFFFFFFFFFFFF then integer (Int64.ofInt i) else real x
  | none => real x

/-- The number that a decimal text writes. -/
def ofDecimalText (t : DecimalText) : Cell :=
  if t.isInteger && Scalar.fitsInt64 t.toInt then integer (Int64.ofInt t.toInt)
  else ofReal t.toBinary64

/-- What a column of numbers keeps. -/
def inNumberColumn : Cell → Cell
  | real x => ofReal x
  | text s =>
    match DecimalText.read? (trimBlanks s.toList) with
    | some t => ofDecimalText t
    | none => text s
  | c => c

end GraphBase.Cell
