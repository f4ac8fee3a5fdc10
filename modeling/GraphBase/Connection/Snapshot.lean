import GraphBase.Json.Text
import GraphBase.Connection.Host

/-!
# Snapshots

A snapshot is a database as a text, so that a file can keep it.  It is JSON: every table is
an array of its last number and its rows, and every row an array of its columns.  The
snapshot begins with a mark by which it is told from other files.

`decode?` undoes `encode`; a text that is no snapshot has no database.
-/

namespace GraphBase.Snapshot

/-- The mark at the beginning of a snapshot. -/
def mark : String := "graph base 1"

/-! ## Cells and columns -/

/-- A text that may be missing. -/
def optionalText : Option String → Json
  | some s => .string s
  | none => .null

def optionalText? : Json → Option (Option String)
  | .null => some none
  | .string s => some (some s)
  | _ => none

/-- A cell; numbers are kept by their bits and bytes by their digits. -/
def cell : Cell → Json
  | .null => .null
  | .integer i => .ofInt i.toInt
  | .real x => .array [.ofNat x.bits.toNat]
  | .text s => .string s
  | .blob bytes =>
    .object [("bytes", .string (String.ofList (bytes.flatMap Text.byteDigits)))]

def cell? : Json → Option Cell
  | .null => some .null
  | .string s => some (.text s)
  | .array [bits] => bits.word64?.map fun n => .real ⟨n.toUInt64⟩
  | .object [(_, .string digits)] => (Text.readBytes? digits.toList).map .blob
  | j => j.int?.map fun i => .integer (Int64.ofInt i)

/-! ## Tables -/

/-- A table, given the columns of its rows. -/
def table {ρ : Type} (row : ρ → List Json) (t : Table ρ) : Json :=
  .array [.ofNat t.lastId, .array (t.rows.map fun r => .array (row r))]

/-- Reads rows. -/
def rows? {ρ : Type} (row? : List Json → Option ρ) (j : Json) : Option (List ρ) :=
  j.items?.bind fun items => items.mapM fun item => item.items?.bind row?

/-- Reads a table. -/
def table? {ρ : Type} (row? : List Json → Option ρ) : Json → Option (Table ρ)
  | .array [lastId, rows] => do
    let lastId ← lastId.word64?
    let rows ← rows? row? rows
    return { rows, lastId }
  | _ => none

def entityRow (r : EntityRow) : List Json :=
  [.ofNat r.id, .string r.name, .string r.createdAt, .string r.updatedAt]

def entityRow? : List Json → Option EntityRow
  | [id, .string name, .string createdAt, .string updatedAt] =>
    id.word64?.map fun id => { id, name, createdAt, updatedAt }
  | _ => none

def linkRow (r : RelationshipRow) : List Json :=
  [.ofNat r.id, cell r.description, .ofNat r.subject, .ofNat r.object,
    .string r.createdAt, .string r.updatedAt]

def linkRow? : List Json → Option RelationshipRow
  | [id, description, subject, object, .string createdAt, .string updatedAt] => do
    let id ← id.word64?
    let description ← cell? description
    let subject ← subject.word64?
    let object ← object.word64?
    return { id, description, subject, object, createdAt, updatedAt }
  | _ => none

def nodeRow (r : NodeRow) : List Json :=
  [.string r.id, optionalText r.name, optionalText r.text, .string r.label,
    .string r.properties, cell r.embedding, .string r.createdAt, .string r.updatedAt]

def nodeRow? : List Json → Option NodeRow
  | [.string id, name, text, .string label, .string properties, embedding,
      .string createdAt, .string updatedAt] => do
    let name ← optionalText? name
    let text ← optionalText? text
    let embedding ← cell? embedding
    return { id, name, text, label, properties, embedding, createdAt, updatedAt }
  | _ => none

def relationRow (r : RelationRow) : List Json :=
  [.ofNat r.id, .string r.label, .string r.source, .string r.target, .string r.properties,
    .string r.createdAt, .string r.updatedAt]

def relationRow? : List Json → Option RelationRow
  | [id, .string label, .string source, .string target, .string properties,
      .string createdAt, .string updatedAt] =>
    id.word64?.map fun id => { id, label, source, target, properties, createdAt, updatedAt }
  | _ => none

def keyRow (r : KeyRow) : List Json := [.ofInt r.id, cell r.key, cell r.value]

def keyRow? : List Json → Option KeyRow
  | [id, key, value] => do
    let id ← id.int?
    let key ← cell? key
    let value ← cell? value
    return { id, key, value }
  | _ => none

def keys (t : KeyTable) : Json := .array (t.rows.map fun r => .array (keyRow r))

def keys? (j : Json) : Option KeyTable := (rows? keyRow? j).map (⟨·⟩)

/-! ## Databases -/

/-- What may be missing. -/
def optional {α : Type} (f : α → Json) : Option α → Json
  | some a => f a
  | none => .null

def optional? {α : Type} (f : Json → Option α) : Json → Option (Option α)
  | .null => some none
  | j => (f j).map some

def graph (g : GraphTables) : Json :=
  .array [.array (g.nodes.map fun r => .array (nodeRow r)), table relationRow g.relations]

def graph? : Json → Option GraphTables
  | .array [nodes, relations] => do
    let nodes ← rows? nodeRow? nodes
    let relations ← table? relationRow? relations
    return { nodes, relations }
  | _ => none

/-- Reads items under names. -/
def named? {α : Type} (read : Json → Option α) : Json → Option (List (String × α))
  | .object members => members.mapM fun (name, j) => (read j).map fun a => (name, a)
  | _ => none

def links (l : LinkTable) : Json := .array [.string l.owner, table linkRow l.table]

def links? : Json → Option LinkTable
  | .array [.string owner, rows] => (table? linkRow? rows).map fun t => ⟨owner, t⟩
  | _ => none

/-- The snapshot of a database. -/
def encode (db : Database) : String :=
  (Json.array [
    .string mark,
    .object (db.entityTables.map fun (name, t) => (name, table entityRow t)),
    .object (db.linkTables.map fun (name, l) => (name, links l)),
    optional graph db.graph,
    optional keys db.keys]).render

/-- The database of a snapshot. -/
def decode? (text : String) : Option Database :=
  match Json.parse? text with
  | some (.array [.string first, entities, linkTables, graphTables, keyTable]) =>
    if first = mark then do
      let entityTables ← named? (table? entityRow?) entities
      let linkTables ← named? links? linkTables
      let graph ← optional? graph? graphTables
      let keys ← optional? keys? keyTable
      return { entityTables, linkTables, graph, keys }
    else none
  | _ => none

/-! ## Files -/

/-- What a file holds, given its bytes. -/
def ofBytes (bytes : List UInt8) : FileContent :=
  match (String.fromUTF8? ⟨bytes.toArray⟩).bind decode? with
  | some db => .database db
  | none => .bytes bytes

/-- The bytes of a file. -/
def toBytes : FileContent → List UInt8
  | .database db => (encode db).toUTF8.toList
  | .bytes content => content

end GraphBase.Snapshot
