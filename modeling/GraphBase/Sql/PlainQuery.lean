import GraphBase.Sql.Token

/-!
# Plain queries

Three forms of statements can be put to a database as a text, whatever its tables are:

* `SELECT` of literals, which are given back as one row;
* `SELECT` of literals and columns of one table, in the order of some of its columns;
* `DELETE FROM` a table, which empties it.

Every other text is no statement.  What is selected may have a label, by which rows can be
ordered too.  A name between double quotes that no column has is a text.
-/

namespace GraphBase

/-- What is selected, or what rows are ordered by. -/
inductive Term where
  | literal (c : Cell)
  | name (s : String)
  /-- The name of a column, or else a text. -/
  | quoted (s : String)
  deriving DecidableEq

/-- What is selected, and its label. -/
structure Selected where
  term : Term
  label : Option String := none
  deriving DecidableEq

/-- One of the terms that rows are ordered by.  An integer is the place of a selected term,
counted from one. -/
structure SortKey where
  term : Term
  descending : Bool := false
  deriving DecidableEq

/-- A query as a text puts it. -/
inductive PlainQuery where
  | select (terms : List Selected) (table : Option String) (order : List SortKey)
  | clear (table : String)
  deriving DecidableEq

namespace PlainQuery

/-- Reads a term. -/
def term? (ts : List Token) : Option (Term × List Token) :=
  match Token.literal? ts, ts with
  | some (c, rest), _ => some (.literal c, rest)
  | none, .quoted s :: rest => some (.quoted s, rest)
  | none, t :: rest => t.identifier?.map fun s => (.name s, rest)
  | none, [] => none

/-- What a token may be as a label. -/
def label? : Token → Option String
  | .text s => some s
  | t => t.identifier?

/-- Reads a selected term; the word before its label may be left out. -/
def selected? (ts : List Token) : Option (Selected × List Token) :=
  match term? ts with
  | some (term, .word "as" :: t :: rest) => (label? t).map fun s => ({ term, label := s }, rest)
  | some (term, t :: rest) =>
    match label? t with
    | some s => some ({ term, label := s }, rest)
    | none => some ({ term }, t :: rest)
  | some (term, []) => some ({ term }, [])
  | none => none

/-- Reads a term that rows are ordered by. -/
def sortKey? (ts : List Token) : Option (SortKey × List Token) :=
  match term? ts with
  | some (term, .word "asc" :: rest) => some ({ term }, rest)
  | some (term, .word "desc" :: rest) => some ({ term, descending := true }, rest)
  | some (term, rest) => some ({ term }, rest)
  | none => none

/-- Reads what rows are ordered by, up to the end. -/
def order? : List Token → Option (List SortKey)
  | [] => some []
  | .word "order" :: .word "by" :: rest =>
    match Token.list? sortKey? (rest.length + 1) rest with
    | some (keys, []) => some keys
    | _ => none
  | _ => none

/-- Reads what follows `SELECT`. -/
def select? (ts : List Token) : Option PlainQuery :=
  match Token.list? selected? (ts.length + 1) ts with
  | some (terms, .word "from" :: t :: rest) =>
    match t.identifier?, order? rest with
    | some table, some order => some (.select terms (some table) order)
    | _, _ => none
  | some (terms, rest) => (order? rest).map (.select terms none)
  | none => none

/-- Reads a query; semicolons may stand before it. -/
def parse? (s : String) : Option PlainQuery :=
  let cs := s.toList.dropWhile fun c => Token.isSpace c || c == ';'
  match Token.ofText? (String.ofList cs) with
  | some (.word "select" :: rest) => select? rest
  | some [.word "delete", .word "from", t] => t.identifier?.map .clear
  | _ => none

end PlainQuery

end GraphBase
