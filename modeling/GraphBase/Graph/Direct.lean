import GraphBase.Graph.Tables

/-!
# Writing to rows directly

Rows can be written to without the store.  Whoever does so may leave rows behind that do not
make sense, but not rows that break the rules of the tables: texts and times may not be
missing, and a node that a relation ends at may not be deleted.

Every statement counts the rows that it changed.  A missing value is refused only if there
is a row to put it into.
-/

namespace GraphBase.GraphTables

/-- Writes the properties text of a node. -/
def setProperties (now id : String) : Option String → Session GraphTables Nat
  | some text => updateNodes now (fun n => n.id == id) fun n => { n with properties := text }
  | none => do
    Session.write
    let t ← get
    if (t.node? id).isSome then Session.fault .notNull else return 0

/-- Writes the properties text of the relations of a label. -/
def setRelationProperties (now label : String) : Option String → Session GraphTables Nat
  | some text =>
    updateRelations now (fun r => r.label == label) fun r => { r with properties := text }
  | none => do
    Session.write
    let t ← get
    if t.relations.rows.any fun r => r.label == label then Session.fault .notNull else return 0

/-- Writes the cell that keeps the embedding of a node. -/
def setEmbedding (now id : String) (cell : Cell) : Session GraphTables Nat :=
  updateNodes now (fun n => n.id == id) fun n => { n with embedding := cell.bound }

/-- Writes the two times of a node. -/
def stamp (now id : String) (created updated : Option String) : Session GraphTables Nat := do
  Session.write
  let t ← get
  match created, updated with
  | some c, some u =>
    updateNodes now (fun n => n.id == id) fun n => { n with createdAt := c, updatedAt := u }
  | _, _ => if (t.node? id).isSome then Session.fault .notNull else return 0

/-- Deletes the row of a node. -/
def removeRow (id : String) : Session GraphTables Nat := deleteRows fun n => n.id == id

/-- All records in order, and all relations in order. -/
def contents (t : GraphTables) :
    Except StorageFault (List NodeRecord × List RelationRow) := do
  return (← t.nodes.mapM NodeRow.record, t.relations.rows)

end GraphBase.GraphTables
