import GraphBase.Triplets.Store
import GraphBase.Value.Column

/-!
# Statements on the tables of a triplet store

Besides its own operations, a triplet store runs single statements on its tables.  They go
around the store, so they may break its habits (an entity without facts, a fact whose
entity has another name now), but not the rules of the tables.

A statement answers with rows of cells; one that writes answers with none.
-/

namespace GraphBase

/-- A statement on the tables of a triplet store. -/
inductive Statement where
  /-- Gives back the cells that were handed over. -/
  | echo (cells : List Cell)
  /-- The names after a name, in order. -/
  | namesAfter (name : String)
  | rename (fromName toName : String)
  | stamp (name : String) (created updated : Option String)
  /-- Inserts a relationship, given its description and the numbers of its ends. -/
  | link (description subject object : Cell)
  | dropEntity (name : String)
  /-- What is no statement. -/
  | malformed
  deriving DecidableEq

namespace Statement

/-- The number of an entity that a cell refers to. -/
def entityNumber? (c : Cell) : Option Nat :=
  match c.inNumberColumn with
  | .integer i => match i.toInt with
    | .ofNat n => some n
    | .negSucc _ => none
  | _ => none

/-- Inserts a relationship from cells.  All three have to be there, and the ends have to be
numbers of entities. -/
def insertLink (now : String) (description subject object : Cell) :
    Session TripletTables Unit := do
  Session.write
  if description = .null ∨ subject = .null ∨ object = .null then Session.fault .notNull
  else
    match entityNumber? subject, entityNumber? object with
    | some s, some o =>
      discard <| TripletTables.insertRelationship now description.inTextColumn s o
    | _, _ => Session.fault .foreignKey

/-- The most values that a row of an answer has room for. -/
def longestRow : Nat := 2000

/-- Runs a statement. -/
def run (now : String) : Statement → Session TripletTables (List (List Cell))
  | echo cells =>
    if cells.isEmpty || longestRow < cells.length then Session.fault .badStatement
    else return [cells.map Cell.bound]
  | namesAfter name => do
    let t ← get
    let names := (t.entities.rows.map (·.name)).filter fun n => name < n
    return (names.mergeSort fun a b => a ≤ b).map fun n => [.text n]
  | rename fromName toName => do
    TripletTables.rename now fromName toName
    return []
  | stamp name created updated => do
    TripletTables.stamp now name created updated
    return []
  | link description subject object => do
    insertLink now description.bound subject.bound object.bound
    return []
  | dropEntity name => do
    discard <| TripletTables.deleteEntities fun e => e.name == name
    return []
  | malformed => Session.fault .badStatement

end Statement

end GraphBase
