import GraphBase.Sql.Expression
import GraphBase.Sql.Fragment
import GraphBase.Storage.Table

/-!
# A table of keys and values

The plainest table has two columns: a key, which is kept as a text, and a value, which is
kept as it comes.  Nothing in it is unique, and any cell may be empty.  Besides, every row has a
number of its own, which is one more than the largest one there is unless it is given.  The
number is a column as well.  The rows are in the order of their numbers.

`getOrCreate` looks a row up by the values of some columns.  The first row that agrees is
the answer; if there is none, a row is inserted that has these values and, in the columns
that were not looked at, some defaults.  Two empty cells agree.  A look-up by nothing makes
no sense and is refused.

Columns are handed over as they stand in a statement.  So a look-up can use whatever may stand
before `IS ?` in a condition, while an insertion takes names only.  A value that the statement
has no place for, or a place without a value, is a fault.

Conditions are joined here as well, and a thousand of them would be too deep for a statement.
Look-ups are taken to use fewer.
-/

namespace GraphBase

/-- The columns, and the number of the row. -/
inductive KeyColumn where
  | row
  | key
  | value
  deriving DecidableEq

/-- A row of the table. -/
structure KeyRow where
  id : Int
  key : Cell
  value : Cell
  deriving DecidableEq, Inhabited

/-- Rows in ascending order of their numbers. -/
structure KeyTable where
  rows : List KeyRow := []
  deriving DecidableEq, Inhabited

/-- The column of a name. -/
def KeyColumn.ofName? (name : String) : Option KeyColumn :=
  let name := Text.foldCase name
  if name = "k" then some .key
  else if name = "v" then some .value
  else if ["rowid", "_rowid_", "oid"].contains name then some .row
  else none

namespace KeyTable

/-- The name of the table. -/
def name : String := "kv"

/-- The columns as a condition names them. -/
def columns : Columns KeyColumn where
  ofPath? names :=
    match names.reverse with
    | column :: path =>
      if [[], [name], [name, "main"]].contains (path.map Text.foldCase) then
        KeyColumn.ofName? column
      else none
    | [] => none
  preference
    | .row => .number
    | .key => .text
    | .value => .any

/-- The cell of a column. -/
def cell (row : KeyRow) : KeyColumn → Cell
  | .row => .integer (Int64.ofInt row.id)
  | .key => row.key
  | .value => row.value

/-! ## Looking up -/

/-- The condition that some columns, as they stand in a statement, have the values handed over. -/
def condition (names : List String) : String :=
  " AND ".intercalate (names.map (· ++ " IS ?")) ++ " LIMIT 1"

/-- Finds the first row with given cells. -/
def find (filter : List (String × Cell)) (t : KeyTable) : Except StorageFault (Option KeyRow) :=
  match Token.ofText? (condition (filter.map (·.1))) with
  | some ts =>
    match Expression.ofTokens? columns (Token.fill (filter.map (·.2.bound)) ts) with
    | some a =>
      if Token.places ts = filter.length then
        .ok (t.rows.find? fun row => (a.eval columns (cell row)).truth == some true)
      else .error .valueCount
    | none => .error .badStatement
  | none => .error .badStatement

/-! ## Inserting -/

/-- Reads the name of a column to insert into. -/
def readColumn? : List Token → Option (KeyColumn × List Token)
  | .text s :: rest => (KeyColumn.ofName? s).map fun c => (c, rest)
  | t :: rest => (t.identifier?.bind KeyColumn.ofName?).map fun c => (c, rest)
  | [] => none

/-- The columns that some names, as they stand in a statement, insert into. -/
def readColumns? (names : List String) : Option (List KeyColumn) := do
  let values := ") VALUES (" ++ Sql.placeholders names.length ++ ")"
  let ts ← Token.ofText? (", ".intercalate names ++ values)
  let (columns, rest) ← Token.list? readColumn? (ts.length + 1) ts
  if columns.length = names.length ∧ Token.ofText? values = some rest then some columns else none

/-- Cells given for columns. -/
abbrev Assignment := List (KeyColumn × Cell)

/-- The first cell given for a column, empty if there is none. -/
def given (cells : Assignment) (column : KeyColumn) : Cell :=
  ((cells.find? fun c => c.1 = column).map (·.2)).getD .null

/-- The number that the next row gets. -/
def nextId (t : KeyTable) : Int :=
  match t.rows.getLast? with
  | some row => row.id + 1
  | none => 1

/-- The number that a row is given, or gets if it is given none.  Of several ones the last
counts. -/
def idOf (cells : Assignment) (t : KeyTable) : Except StorageFault Int :=
  match (given cells.reverse .row).inNumberColumn with
  | .null => .ok t.nextId
  | .integer i => if t.rows.any (·.id = i.toInt) then .error .numberTaken else .ok i.toInt
  | _ => .error .mismatch

/-- Inserts a row at its place. -/
def insertRow (row : KeyRow) (t : KeyTable) : KeyTable :=
  ⟨t.rows.takeWhile (·.id < row.id) ++ row :: t.rows.dropWhile (·.id < row.id)⟩

/-- Inserts a row with given cells; answers with its number. -/
def insert (given : List (String × Cell)) : Session KeyTable Int := do
  match readColumns? (given.map (·.1)) with
  | some columns =>
    Session.write
    let cells := columns.zip (given.map (·.2.bound))
    let t ← get
    let id ← Session.ofRead (idOf cells t)
    set (t.insertRow ⟨id, (KeyTable.given cells .key).inTextColumn, KeyTable.given cells .value⟩)
    return id
  | none => Session.fault .badStatement

/-- Finds or makes a row; answers with its number and whether it was made. -/
def getOrCreate (filter defaults : List (String × Cell)) : Session KeyTable (Int × Bool) := do
  match ← Session.readsOk (find filter) with
  | some row => return (row.id, false)
  | none => return (← insert (filter ++ defaults), true)

end KeyTable

end GraphBase
