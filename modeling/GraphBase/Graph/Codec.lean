import GraphBase.Graph.Node

/-!
# Nodes, relations and triplets as JSON

Each of the three is a record.  Its fields are written in one fixed order; an absent
embedding is left out, absent properties are written as an empty object.  Reading
accepts the fields in any order, and the array form of a record; properties may be
missing, an embedding may be missing or null, and every other field has to be there.

The kind of a node is the field `kind` of an object and the first item of an array.
-/

namespace GraphBase

open GraphBase.Number

/-! ## Writing -/

/-- A component; one that is not finite is written as null. -/
def Number.Binary32.toJson (x : Binary32) : Json :=
  match Json.Numeral.ofBinary32? x with
  | some n => .number n
  | none => .null

/-- The components in a row. -/
def Embedding.toJson (v : Embedding) : Json := .array (v.map Binary32.toJson)

/-- The fields that every node carries. -/
def NodeBody.members (b : NodeBody) : List (String × Json) :=
  ("label", .string b.label) :: ("properties", b.properties.toJson) ::
    match b.embedding with
    | some v => [("embedding", v.toJson)]
    | none => []

/-- A node as an object, its kind first. -/
def Node.toJson : Node → Json
  | .entity name b =>
    .object (("kind", .string "entity") :: ("name", .string name) :: b.members)
  | .chunk id text b =>
    .object (("kind", .string "chunk") :: ("id", .string id) :: ("text", .string text) ::
      b.members)
  | .other id b =>
    .object (("kind", .string "other") :: ("id", .string id) :: b.members)

/-- A relation as an object. -/
def Relation.toJson (r : Relation) : Json :=
  .object [("label", .string r.label), ("source_id", .string r.source),
    ("target_id", .string r.target), ("properties", r.properties.toJson)]

/-- A triplet as an object. -/
def Triplet.toJson (t : Triplet) : Json :=
  .object [("source", t.source.toJson), ("relation", t.relation.toJson),
    ("target", t.target.toJson)]

/-! ## Reading -/

/-- A component: any number in range. -/
def Number.Binary32.ofJson? : Json → Option Binary32
  | .number n => n.toBinary32?
  | _ => none

/-- A row of components. -/
def Embedding.ofJson? : Json → Option Embedding
  | .array xs => xs.mapM Binary32.ofJson?
  | _ => none

/-- Properties, which may be missing. -/
def propertiesField? : Option Json → Option Properties
  | none => some .empty
  | some j => Properties.ofJson? j

/-- An embedding, which may be missing or null. -/
def embeddingField? : Option Json → Option (Option Embedding)
  | none => some none
  | some .null => some none
  | some j => (Embedding.ofJson? j).map some

/-- A text, which may not be missing. -/
def textField? : Option Json → Option String
  | some (.string s) => some s
  | _ => none

/-- The fields that every node carries. -/
def NodeBody.ofFields? (label properties embedding : Option Json) : Option NodeBody := do
  let label ← textField? label
  let properties ← propertiesField? properties
  let embedding ← embeddingField? embedding
  return { label, properties, embedding }

/-- Reads the fields of a node whose kind is known. -/
def Node.ofRecord? (kind : NodeKind) (record : Json) : Option Node :=
  match kind with
  | .entity =>
    match record.fields? ["name", "label", "properties", "embedding"] with
    | some [name, label, properties, embedding] => do
      let name ← textField? name
      return .entity name (← NodeBody.ofFields? label properties embedding)
    | _ => none
  | .chunk =>
    match record.fields? ["id", "text", "label", "properties", "embedding"] with
    | some [id, text, label, properties, embedding] => do
      let id ← textField? id
      let text ← textField? text
      return .chunk id text (← NodeBody.ofFields? label properties embedding)
    | _ => none
  | .other =>
    match record.fields? ["id", "label", "properties", "embedding"] with
    | some [id, label, properties, embedding] => do
      let id ← textField? id
      return .other id (← NodeBody.ofFields? label properties embedding)
    | _ => none

/-- Reads a node. -/
def Node.ofJson? : Json → Option Node
  | .object members => do
    let kind ← NodeKind.ofName? (← textField? (Json.lookup "kind" members))
    Node.ofRecord? kind (.object members)
  | .array (kind :: rest) => do
    let kind ← NodeKind.ofName? (← textField? (some kind))
    Node.ofRecord? kind (.array rest)
  | _ => none

/-- Reads a relation. -/
def Relation.ofJson? (j : Json) : Option Relation :=
  match j.fields? ["label", "source_id", "target_id", "properties"] with
  | some [label, source, target, properties] => do
    let label ← textField? label
    let source ← textField? source
    let target ← textField? target
    let properties ← propertiesField? properties
    return { label, source, target, properties }
  | _ => none

/-- Reads a triplet. -/
def Triplet.ofJson? (j : Json) : Option Triplet :=
  match j.fields? ["source", "relation", "target"] with
  | some [some source, some relation, some target] => do
    let source ← Node.ofJson? source
    let relation ← Relation.ofJson? relation
    let target ← Node.ofJson? target
    return { source, relation, target }
  | _ => none

end GraphBase
