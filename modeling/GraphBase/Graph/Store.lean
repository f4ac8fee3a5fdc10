import GraphBase.Graph.Selection
import GraphBase.Sql.Schema

/-!
# The property graph store

A property graph store keeps labelled nodes with properties and embeddings, and labelled
relations between them.

* Writing a node overwrites the row of its identity; what a kind of node does not have, a
  name or a text, stays as it was.  All embeddings of a batch are measured before anything
  is written.
* Writing a relation makes bare rows for ends that are missing.
* Reading selects rows by a selection and reads them as nodes and triplets; one row that
  does not read fails the whole call.  So does a selection with so many conditions that the
  statement cannot be made, before any row is looked at.
-/

namespace GraphBase

namespace PropertySchema

/-- Lets embeddings of the dimension pass, and nodes without one. -/
def checkEmbedding (s : PropertySchema) : Option Embedding → Except Error Unit
  | none => .ok ()
  | some v =>
    if v.length = s.dimension then .ok ()
    else .error (.dimensionMismatch s.dimension v.length)

/-- Lets a batch pass whose embeddings all pass; the first that does not is the answer. -/
def checkEmbeddings (s : PropertySchema) : List Node → Except Error Unit
  | [] => .ok ()
  | n :: rest =>
    match s.checkEmbedding n.embedding with
    | .ok () => s.checkEmbeddings rest
    | .error e => .error e

end PropertySchema

/-- The cell that keeps an embedding. -/
def embeddingCell : Option Embedding → Cell
  | none => .null
  | some v => .blob (Embedding.encode v)

/-- The row after a node has been written to it. -/
def NodeRow.write (node : Node) (row : NodeRow) : NodeRow :=
  let row := { row with
    label := node.label
    properties := node.properties.encode
    embedding := embeddingCell node.embedding }
  match node with
  | .entity name _ => { row with name := some name }
  | .chunk _ text _ => { row with text := some text }
  | .other _ _ => row

namespace GraphTables

/-! ## Nodes -/

/-- The record of an identity, if there is one. -/
def record? (t : GraphTables) (id : String) : Except StorageFault (Option NodeRecord) :=
  match t.node? id with
  | some row => row.record.map some
  | none => .ok none

/-- The record of an identity, of a bare row if there was none, and whether it was made. -/
def getOrCreateNode (now id : String) : Session GraphTables (NodeRecord × Bool) := do
  let (row, created) ← getOrCreateRow now id
  return (← Session.ofRead row.record, created)

/-- Writes one node. -/
def writeNode (now : String) (node : Node) : Session GraphTables Unit := do
  discard <| getOrCreateRow now node.id
  discard <| updateNodes now (fun n => n.id == node.id) (NodeRow.write node)

/-- Writes nodes one after the other. -/
def writeNodes (now : String) : List Node → Session GraphTables Unit
  | [] => return ()
  | node :: rest => do
    writeNode now node
    writeNodes now rest

/-- The nodes that have all the properties and one of the identities; an empty list of
identities stands for all.  Without identities, rows are read as they are selected. -/
def nodesWith (t : GraphTables) (properties : Properties) (ids : List String) :
    Except StorageFault (List Node) := do
  Sql.prepare (nodeConditions properties ids)
  let selected (row : NodeRow) := matchesAll row.properties properties.entries
  if ids.isEmpty then filterMapOk selected NodeRow.node t.nodes
  else
    let rows ← filterOk selected (t.nodes.filter fun n => ids.contains n.id)
    rows.mapM NodeRow.node

/-- A request for nodes whose statement can be prepared. -/
theorem nodesWith_of_prepare {properties : Properties} {ids : List String}
    (h : Sql.prepare (nodeConditions properties ids) = .ok ()) (t : GraphTables) :
    t.nodesWith properties ids =
      if ids.isEmpty then
        filterMapOk (fun row => matchesAll row.properties properties.entries) NodeRow.node t.nodes
      else
        filterOk (fun row : NodeRow => matchesAll row.properties properties.entries)
          (t.nodes.filter fun n => ids.contains n.id) >>= fun rows => rows.mapM NodeRow.node := by
  rw [nodesWith, h]
  rfl

/-! ## Relations -/

/-- Writes one relation. -/
def writeRelation (now : String) (r : Relation) : Session GraphTables Unit := do
  discard <| getOrCreateNode now r.source
  discard <| getOrCreateNode now r.target
  let t ← get
  let row ← match t.relation? r.label r.source r.target with
    | some row => pure row
    | none => insertRelation now r.label r.source r.target
  discard <| updateRelations now (fun x => x.id == row.id)
    fun x => { x with properties := r.properties.encode }

/-- Writes relations one after the other. -/
def writeRelations (now : String) : List Relation → Session GraphTables Unit
  | [] => return ()
  | r :: rest => do
    writeRelation now r
    writeRelations now rest

/-- A relation row and the rows of its ends. -/
structure Joined where
  relation : RelationRow
  source : NodeRow
  target : NodeRow

/-- A relation row with the rows of its ends, if both are there. -/
def join? (t : GraphTables) (r : RelationRow) : Option Joined :=
  match t.node? r.source, t.node? r.target with
  | some s, some o => some ⟨r, s, o⟩
  | _, _ => none

/-- Reads a triplet: the properties of the relation, then the source, then the target. -/
def Joined.triplet (j : Joined) : Except StorageFault Triplet := do
  let properties ← readProperties j.relation.properties
  let source ← j.source.record
  let target ← j.target.record
  return {
    source := source.node
    relation := ⟨j.relation.label, source.id, target.id, properties.removeEmpty⟩
    target := target.node }

/-- Whether a relation row is selected, as far as labels and identities go. -/
def Joined.isNamedBy (s : Selection) (j : Joined) : Bool :=
  (s.ids.isEmpty || s.ids.contains j.source.id || s.ids.contains j.target.id) &&
    (s.relationNames.isEmpty || s.relationNames.contains j.relation.label)

/-- Whether one of the ends has one of the names, if there are any to have. -/
def Joined.hasName (s : Selection) (j : Joined) : Bool :=
  let isNamed (n : NodeRow) := match n.name with
    | some name => s.entityNames.contains name
    | none => false
  s.entityNames.isEmpty || isNamed j.source || isNamed j.target

/-- Whether a relation row is selected, as far as properties and names go. -/
def Joined.isSelected (s : Selection) (j : Joined) : Except StorageFault Bool :=
  (anyMatchesEach [j.relation.properties, j.source.properties, j.target.properties]
    s.properties.entries).map fun b => b && j.hasName s

/-- The triplets that every part of a selection selects; none for an empty selection.
Without labels and identities, rows are read as they are selected. -/
def triplets (t : GraphTables) (s : Selection) : Except StorageFault (List Triplet) := do
  if s.isEmpty then return []
  Sql.prepare s.conditions
  let rows := (t.relations.rows.filterMap t.join?).filter fun j => j.isNamedBy s
  if s.ids.isEmpty && s.relationNames.isEmpty then
    filterMapOk (Joined.isSelected s) Joined.triplet rows
  else
    let rows ← filterOk (Joined.isSelected s) rows
    rows.mapM Joined.triplet

/-- A request for triplets whose statement can be prepared. -/
theorem triplets_of_prepare {s : Selection} (hs : s.isEmpty = false)
    (h : Sql.prepare s.conditions = .ok ()) (t : GraphTables) :
    t.triplets s =
      let rows := (t.relations.rows.filterMap t.join?).filter fun j => j.isNamedBy s
      if s.ids.isEmpty && s.relationNames.isEmpty then
        filterMapOk (Joined.isSelected s) Joined.triplet rows
      else filterOk (Joined.isSelected s) rows >>= fun rows => rows.mapM Joined.triplet := by
  rw [triplets, hs, h]
  rfl

end GraphTables

end GraphBase
