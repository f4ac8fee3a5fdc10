import GraphBase.Number.Notation

/-!
# Cells

A cell is what a table holds in one row and one column: nothing, an integer, a
floating point number, a text, or bytes.  Two cells are compared in two ways.

* `equals` is the comparison of a filter.  An integer and a floating point number
  are equal when they are the same number, compared exactly; cells of different
  kinds are otherwise unequal, and nothing equals nothing.
* `same` is the comparison of a look-up.  It agrees with `equals`, except that two
  empty cells are the same.

A cell never holds a NaN: a NaN that is handed over arrives as an empty cell
(`bound`).
-/

namespace GraphBase

open GraphBase.Number

/-- The content of one column of one row. -/
inductive Cell where
  | null
  | integer (i : Int64)
  | real (x : Binary64)
  | text (s : String)
  | blob (bytes : List UInt8)
  deriving DecidableEq, Inhabited

namespace Cell

/-- What a value becomes when it is handed over: a NaN becomes an empty cell. -/
def bound : Cell → Cell
  | real x => if x.isNaN then null else real x
  | c => c

/-- Equality of a filter. -/
def equals : Cell → Cell → Bool
  | integer i, integer j => i == j
  | integer i, real x => x.compareInt? i.toInt == some .eq
  | real x, integer i => x.compareInt? i.toInt == some .eq
  | real x, real y => x.compare? y == some .eq
  | text s, text t => s == t
  | blob a, blob b => a == b
  | _, _ => false

/-- Equality of a look-up: two empty cells are the same. -/
def same : Cell → Cell → Bool
  | null, null => true
  | a, b => a.equals b

/-- What a column of texts keeps: numbers are written out, all else stays. -/
def inTextColumn : Cell → Cell
  | integer i => text (integerText i.toInt)
  | real x => text x.column
  | c => c

@[simp] theorem equals_null_left (c : Cell) : null.equals c = false := rfl

@[simp] theorem equals_null_right (c : Cell) : c.equals null = false := by cases c <;> rfl

@[simp] theorem equals_text (s t : String) : (text s).equals (text t) = (s == t) := rfl

end Cell

end GraphBase
