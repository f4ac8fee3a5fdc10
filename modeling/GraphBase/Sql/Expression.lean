import GraphBase.Sql.Token
import GraphBase.Value.Column

/-!
# Expressions on a row

An expression compares columns with cells, and joins comparisons by `NOT`, `AND` and `OR`.  What is
true or false is the integer 1 or 0, and any number other than zero is true.  Where an empty cell
takes part, neither may be known, and the cell of the expression is empty; `IS` alone always
decides.

A column may prefer a kind of cells.  In a comparison the preference of a column extends to the
other side: a number on either side makes numbers of both, and a column of texts makes a text of
a cell that comes from nowhere.

A name between double quotes that no column has is a text.
-/

namespace GraphBase

/-- The kind of cells that a column prefers. -/
inductive Preference where
  | number
  | text
  | any
  deriving DecidableEq

/-- The columns of the rows of a table: how each is named, and what it prefers. -/
structure Columns (κ : Type) where
  /-- The column of a name, which may have the names of a database and a table before it. -/
  ofPath? : List String → Option κ
  preference : κ → Preference

/-- An expression on a row with columns `κ`. -/
inductive Expression (κ : Type) where
  | cell (c : Cell)
  | column (k : κ)
  /-- Both sides are the same, empty ones too. -/
  | same (a b : Expression κ)
  /-- Both sides are equal. -/
  | equal (a b : Expression κ)
  | not (a : Expression κ)
  | and (a b : Expression κ)
  | or (a b : Expression κ)
  deriving DecidableEq

/-! ## Truth -/

namespace Cell

/-- The number that a text begins with. -/
def leadingNumber (cs : List Char) : Number.Binary64 :=
  (Number.DecimalText.readStart (cs.dropWhile isBlank)).toBinary64

/-- Whether a cell is a number other than zero, or begins with one; nothing is known of an empty
cell. -/
def truth : Cell → Option Bool
  | null => none
  | integer i => some (i != 0)
  | real x => some (x.compareInt? 0 != some .eq)
  | text s => some ((leadingNumber s.toList).compareInt? 0 != some .eq)
  | blob bytes =>
    some ((leadingNumber (bytes.map fun b => Char.ofNat b.toNat)).compareInt? 0 != some .eq)

/-- What is known as a cell. -/
def ofTruth : Option Bool → Cell
  | none => null
  | some true => integer 1
  | some false => integer 0

@[simp] theorem truth_ofTruth (a : Option Bool) : (ofTruth a).truth = a := by
  rcases a with _ | _ | _ <;> rfl

end Cell

/-- Both: what is false wins over what is not known. -/
def bothKnown : Option Bool → Option Bool → Option Bool
  | some false, _ | _, some false => some false
  | some true, some true => some true
  | _, _ => none

/-- One of both: what is true wins over what is not known. -/
def eitherKnown (a b : Option Bool) : Option Bool :=
  (bothKnown (a.map (!·)) (b.map (!·))).map (!·)

namespace Expression

variable {κ : Type}

/-! ## Evaluation -/

/-- What an expression prefers; only a column does. -/
def preference? (columns : Columns κ) : Expression κ → Option Preference
  | column k => some (columns.preference k)
  | _ => none

/-- What becomes of both sides of a comparison. -/
def conversion : Option Preference → Option Preference → Cell → Cell
  | some .number, _ | _, some .number => Cell.inNumberColumn
  | some .text, none | none, some .text => Cell.inTextColumn
  | _, _ => id

/-- The cell of an expression, given the cells of a row. -/
def eval (columns : Columns κ) (row : κ → Cell) : Expression κ → Cell
  | cell c => c
  | column k => row k
  | same a b =>
    let convert := conversion (a.preference? columns) (b.preference? columns)
    .ofTruth (some ((convert (a.eval columns row)).same (convert (b.eval columns row))))
  | equal a b =>
    let convert := conversion (a.preference? columns) (b.preference? columns)
    let x := convert (a.eval columns row)
    let y := convert (b.eval columns row)
    .ofTruth (if x = .null ∨ y = .null then none else some (x.equals y))
  | not a => .ofTruth ((a.eval columns row).truth.map (!·))
  | and a b => .ofTruth (bothKnown (a.eval columns row).truth (b.eval columns row).truth)
  | or a b => .ofTruth (eitherKnown (a.eval columns row).truth (b.eval columns row).truth)

/-! ## Reading -/

/-- Reads a name with the names before it. -/
def path? : Nat → List Token → Option (List String × List Token)
  | 0, _ => none
  | fuel + 1, t :: .mark "." :: rest =>
    match t.identifier?, path? fuel rest with
    | some s, some (names, rest) => some (s :: names, rest)
    | _, _ => none
  | _ + 1, t :: rest => t.identifier?.map fun s => ([s], rest)
  | _ + 1, [] => none

/-- Reads a cell or a column. -/
def leaf? (columns : Columns κ) (ts : List Token) : Option (Expression κ × List Token) :=
  match Token.literal? ts, ts with
  | some (c, rest), _ => some (cell c, rest)
  | none, .value c :: rest => some (cell (c.getD .null), rest)
  | none, ts =>
    match path? (ts.length + 1) ts with
    | some (names, rest) =>
      match columns.ofPath? names, names, ts with
      | some k, _, _ => some (column k, rest)
      | none, [_], .quoted s :: _ => some (cell (.text s), rest)
      | none, _, _ => none
    | none => none

/-- What compares two sides. -/
def comparison? : List Token → Option ((Expression κ → Expression κ → Expression κ) × List Token)
  | .word "is" :: .word "not" :: rest => some (fun a b => not (same a b), rest)
  | .word "is" :: rest => some (same, rest)
  | .mark m :: rest =>
    if m = "=" ∨ m = "==" then some (equal, rest)
    else if m = "<>" ∨ m = "!=" then some (fun a b => not (equal a b), rest)
    else none
  | _ => none

/-- How strongly the parts of an expression hang together. -/
inductive Strength where
  | or
  | and
  | not
  | leaf

mutual

/-- Reads an expression whose parts hang together with a strength at least. -/
def read? (columns : Columns κ) : Nat → Strength → List Token →
    Option (Expression κ × List Token)
  | 0, _, _ => none
  | fuel + 1, .or, ts =>
    match read? columns fuel .and ts with
    | some (a, .word "or" :: rest) =>
      (read? columns fuel .or rest).map fun (b, rest) => (.or a b, rest)
    | r => r
  | fuel + 1, .and, ts =>
    match read? columns fuel .not ts with
    | some (a, .word "and" :: rest) =>
      (read? columns fuel .and rest).map fun (b, rest) => (.and a b, rest)
    | r => r
  | fuel + 1, .not, .word "not" :: rest =>
    (read? columns fuel .not rest).map fun (a, rest) => (.not a, rest)
  | fuel + 1, .not, ts =>
    match read? columns fuel .leaf ts with
    | some (a, rest) => readOn? columns fuel a rest
    | none => none
  | fuel + 1, .leaf, .mark "(" :: rest =>
    match read? columns fuel .or rest with
    | some (a, .mark ")" :: rest) => some (a, rest)
    | _ => none
  | _ + 1, .leaf, ts => leaf? columns ts

/-- Reads the comparisons that follow an expression, from the left. -/
def readOn? (columns : Columns κ) : Nat → Expression κ → List Token →
    Option (Expression κ × List Token)
  | 0, _, _ => none
  | fuel + 1, a, ts =>
    match comparison? ts with
    | some (compare, rest) =>
      match read? columns fuel .leaf rest with
      | some (b, rest) => readOn? columns fuel (compare a b) rest
      | none => none
    | none => some (a, ts)

end

/-- Reads an expression that a statement ends with, or that at most a limit follows. -/
def ofTokens? (columns : Columns κ) (ts : List Token) : Option (Expression κ) :=
  match read? columns (4 * ts.length + 4) .or ts with
  | some (a, []) | some (a, [.word "limit", .number _]) => some a
  | _ => none

end Expression

end GraphBase
