import GraphBase.Named
import GraphBase.Number.Binary

/-!
# TOML values

A TOML text is one table.  The values in a table have names, a table may be in a table,
and a name may stand for a row of tables, of which the last one is being filled.

A text fills its tables piece by piece, and may come back to a table that it has left.
Whether it may add to it depends on how the table came about: a table between braces is
finished; a table with a header of its own is not added to by dotted names; a table that a
dotted name brought about gets no header.  `Origin` keeps what has to be known for this,
and `change?` is the one way into a table.
-/

namespace GraphBase

open GraphBase.Number

/-- How a table came about. -/
inductive Toml.Origin where
  /-- A header of a table in it was met. -/
  | implied
  /-- A dotted name of a value in it was met. -/
  | dotted
  /-- Its own header was met. -/
  | defined
  /-- It was written between braces. -/
  | inline
  deriving DecidableEq, Repr, Inhabited

/-- A value of a TOML text. -/
inductive Toml where
  | string (s : String)
  | integer (i : Int)
  | float (x : Binary64)
  | boolean (b : Bool)
  /-- A date, a time of day, or both. -/
  | moment (text : String)
  | array (items : List Toml)
  | table (origin : Toml.Origin) (members : List (String × Toml))
  /-- A row of tables. -/
  | tables (rows : List (List (String × Toml)))
  deriving Inhabited

namespace Toml

/-- The named values of a table. -/
abbrev Members := List (String × Toml)

/-- What leads to a table: a header, or the dotted name of a value. -/
inductive Route where
  | header
  | dotted
  deriving DecidableEq

namespace Route

/-- The origin of a table that is missing on a route. -/
def origin : Route → Origin
  | header => .implied
  | dotted => .dotted

/-- Whether a route may lead into a table; `isEnd` says that it leads no further. -/
def mayEnter (route : Route) (isEnd : Bool) : Origin → Bool
  | .inline => false
  | .dotted => true
  | .implied => route == .header || !isEnd
  | .defined => route == .header

end Route

/-- Changes the table at the end of a path.  Tables that are missing on the path are made,
and of a row of tables the last one is meant. -/
def change? (route : Route) (act : Members → Option Members) :
    List String → Members → Option Members
  | [], members => act members
  | name :: path, members =>
    match lookupName name members with
    | none =>
      (change? route act path []).map fun inner =>
        members ++ [(name, .table route.origin inner)]
    | some (.table origin inner) =>
      if route.mayEnter path.isEmpty origin then
        (change? route act path inner).map fun inner =>
          replaceName name (.table origin inner) members
      else none
    | some (.tables rows) =>
      if route = .dotted ∧ path.isEmpty then none
      else
        (change? route act path (rows.getLastD [])).map fun inner =>
          replaceName name (.tables (rows.dropLast ++ [inner])) members
    | some _ => none

/-- Changes something under the last of some names, in the table that the others lead to. -/
def changeAt? (route : Route) (act : String → Members → Option Members)
    (names : List String) (members : Members) : Option Members :=
  match names.getLast? with
  | some name => change? route (act name) names.dropLast members
  | none => none

/-- Puts a value under a name that is free. -/
def insert? (value : Toml) (name : String) (members : Members) : Option Members :=
  match lookupName name members with
  | none => some (members ++ [(name, value)])
  | some _ => none

/-- Opens the table under a name; it may be there without a header of its own. -/
def define? (name : String) (members : Members) : Option Members :=
  match lookupName name members with
  | none => some (members ++ [(name, .table .defined [])])
  | some (.table .implied inner) => some (replaceName name (.table .defined inner) members)
  | some _ => none

/-- Opens one more table in the row of tables under a name. -/
def append? (name : String) (members : Members) : Option Members :=
  match lookupName name members with
  | none => some (members ++ [(name, .tables [[]])])
  | some (.tables rows) => some (replaceName name (.tables (rows ++ [[]])) members)
  | some _ => none

/-! ## What a value is -/

def string? : Toml → Option String
  | string s => some s
  | _ => none

/-- A natural number, if the value is an integer that is one. -/
def natural? : Toml → Option Nat
  | integer (.ofNat n) => some n
  | _ => none

end Toml

end GraphBase
