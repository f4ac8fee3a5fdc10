import GraphBase.Graph.Codec
import GraphBase.Storage.Table

/-!
# The tables of the property graph store

A node row keeps an identity, perhaps a name and a text, a label, properties as a JSON text
and an embedding as bytes.  A relation row keeps a number, a label, the identities of its
two ends and properties as a JSON text.  No two nodes have the same identity, no two
relations agree in label and both ends, and both ends of a relation exist.

Nodes stand in the order of their insertion; writing to a node does not move it.

## Rows and records

A row holds what was written, which need not make sense: someone may have written a text
that is no JSON, or something in place of the bytes.  A *record* is a row that makes sense.
Reading a row as a record looks at the properties first and at the embedding second.

A *bare* row exists only because a relation ends there: it has no name, no text and no
embedding, the label of such rows, and properties whose text is that of the empty bag.
-/

namespace GraphBase

/-- A row of the node table. -/
structure NodeRow where
  id : String
  name : Option String := none
  text : Option String := none
  label : String := bareLabel
  /-- The JSON text of the properties. -/
  properties : String := Properties.empty.encode
  /-- Empty, or the bytes of an embedding. -/
  embedding : Cell := .null
  createdAt : String
  updatedAt : String
  deriving DecidableEq, Inhabited

/-- A row of the relation table. -/
structure RelationRow where
  id : Nat
  label : String
  source : String
  target : String
  /-- The JSON text of the properties. -/
  properties : String := Properties.empty.encode
  createdAt : String
  updatedAt : String
  deriving DecidableEq, Inhabited

/-- A node row that makes sense. -/
structure NodeRecord where
  id : String
  name : Option String
  text : Option String
  label : String
  properties : Properties
  embedding : Option Embedding
  createdAt : String
  updatedAt : String
  deriving DecidableEq, Inhabited

/-- The properties of a stored text. -/
def readProperties (text : String) : Except StorageFault Properties :=
  match Properties.decode? text with
  | some p => .ok p
  | none => .error .undecodable

/-- The embedding of a stored cell. -/
def readEmbedding : Cell → Except StorageFault (Option Embedding)
  | .null => .ok none
  | .blob bytes => .ok (some (Embedding.decode bytes))
  | _ => .error .wrongKind

namespace NodeRow

/-- The row of an identity that nothing else is known of. -/
def bare (now id : String) : NodeRow := { id, createdAt := now, updatedAt := now }

/-- Whether a row exists only because a relation ends there. -/
def isBare (row : NodeRow) : Bool :=
  row.name.isNone && row.text.isNone && row.embedding == .null && row.label == bareLabel &&
    row.properties == Properties.empty.encode

/-- Reads a row. -/
def record (row : NodeRow) : Except StorageFault NodeRecord := do
  let properties ← readProperties row.properties
  let embedding ← readEmbedding row.embedding
  return { row with properties, embedding }

end NodeRow

/-- The node of a record.  Its label decides on its kind, a name that is missing is the
identity, a text that is missing is empty, and empty properties are dropped. -/
def NodeRecord.node (r : NodeRecord) : Node :=
  let body : NodeBody := ⟨r.label, r.properties.removeEmpty, r.embedding⟩
  match NodeKind.ofLabel r.label with
  | .chunk => .chunk r.id (r.text.getD "") body
  | _ => .entity (r.name.getD r.id) body

/-- The node of a row. -/
def NodeRow.node (row : NodeRow) : Except StorageFault Node := row.record.map NodeRecord.node

/-- The two tables of a property graph store. -/
structure GraphTables where
  nodes : List NodeRow := []
  relations : Table RelationRow := {}
  deriving DecidableEq, Inhabited

namespace GraphTables

/-! ## Looking up -/

/-- The row of an identity. -/
def node? (t : GraphTables) (id : String) : Option NodeRow :=
  t.nodes.find? fun n => n.id == id

/-- The relation of a label and two ends. -/
def relation? (t : GraphTables) (label source target : String) : Option RelationRow :=
  t.relations.rows.find? fun r => r.label == label && r.source == source && r.target == target

/-- Whether a relation ends at an identity. -/
def refersTo (t : GraphTables) (id : String) : Bool :=
  t.relations.rows.any fun r => r.source == id || r.target == id

/-- The counts of the store. -/
def stats (t : GraphTables) : Stats :=
  ⟨t.nodes.length, t.relations.rows.length, (t.nodes.filter fun n => n.embedding != .null).length⟩

/-! ## Writing -/

/-- The row of an identity, a bare one made if there is none, and whether it was made. -/
def getOrCreateRow (now id : String) : Session GraphTables (NodeRow × Bool) := do
  let t ← get
  match t.node? id with
  | some row => return (row, false)
  | none =>
    Session.write
    let row := NodeRow.bare now id
    set { t with nodes := t.nodes ++ [row] }
    return (row, true)

/-- Changes the rows that satisfy a condition, moves the times of their last change, and
counts them. -/
def updateNodes (now : String) (p : NodeRow → Bool) (f : NodeRow → NodeRow) :
    Session GraphTables Nat := do
  Session.write
  let t ← get
  let change (n : NodeRow) : NodeRow :=
    if p n then { f n with updatedAt := touched now n.updatedAt (f n).updatedAt } else n
  set { t with nodes := t.nodes.map change }
  return (t.nodes.filter p).length

/-- Changes the relations that satisfy a condition, likewise. -/
def updateRelations (now : String) (p : RelationRow → Bool) (f : RelationRow → RelationRow) :
    Session GraphTables Nat := do
  Session.write
  let t ← get
  let change (r : RelationRow) : RelationRow :=
    if p r then { f r with updatedAt := touched now r.updatedAt (f r).updatedAt } else r
  set { t with relations := t.relations.mapRows change }
  return (t.relations.rows.filter p).length

/-- Inserts a relation. -/
def insertRelation (now label source target : String) : Session GraphTables RelationRow := do
  Session.write
  let t ← get
  if (t.relation? label source target).isSome then Session.fault .unique
  else if (t.node? source).isNone || (t.node? target).isNone then Session.fault .foreignKey
  else
    let row : RelationRow :=
      { id := t.relations.nextId, label, source, target, createdAt := now, updatedAt := now }
    set { t with relations := t.relations.append fun _ => row }
    return row

/-- Deletes the relations that satisfy a condition and gives back their ends. -/
def deleteRelations (p : RelationRow → Bool) : Session GraphTables (List String) := do
  Session.write
  let t ← get
  set { t with relations := t.relations.keep fun r => !p r }
  return (t.relations.rows.filter p).flatMap fun r => [r.source, r.target]

/-- Deletes the rows that satisfy a condition and counts them. -/
def deleteRows (p : NodeRow → Bool) : Session GraphTables Nat := do
  Session.write
  let t ← get
  let gone := t.nodes.filter p
  if gone.any fun n => t.refersTo n.id then Session.fault .foreignKey
  else
    set { t with nodes := t.nodes.filter fun n => !p n }
    return gone.length

end GraphTables

end GraphBase
