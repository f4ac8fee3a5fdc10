import GraphBase.Graph.Embedding
import GraphBase.Value.Properties

/-!
# Nodes, relations and triplets

A property graph has labelled nodes and labelled relations between them.

* An *entity* is a named thing; its name identifies it.
* A *chunk* is a span of text with an identity of its own.
* Any *other* node has an identity and nothing more.

All three carry a label, properties and perhaps an embedding.  A *relation* joins two
nodes by their identities; a *triplet* is a relation together with the two nodes.

## Kind and label

A table keeps the label but not the kind.  The reserved label `text_chunk` marks the
rows that read back as chunks; every other row reads back as an entity.
-/

namespace GraphBase

/-- The reserved label of chunk rows. -/
def chunkLabel : String := "text_chunk"

/-- The label of rows that exist only because a relation ends there. -/
def bareLabel : String := "node"

/-- The label of an entity that was given none. -/
def entityLabel : String := "entity"

/-- The three kinds of nodes. -/
inductive NodeKind where
  | entity
  | chunk
  | other
  deriving DecidableEq

namespace NodeKind

def name : NodeKind → String
  | entity => "entity"
  | chunk => "chunk"
  | other => "other"

def ofName? : String → Option NodeKind
  | "entity" => some entity
  | "chunk" => some chunk
  | "other" => some other
  | _ => none

/-- The kind that a row of this label reads back as. -/
def ofLabel (label : String) : NodeKind := if label = chunkLabel then chunk else entity

end NodeKind

/-- What every node carries. -/
structure NodeBody where
  label : String
  properties : Properties := .empty
  embedding : Option Embedding := none
  deriving DecidableEq, Inhabited

/-- A node of the property graph. -/
inductive Node where
  | entity (name : String) (body : NodeBody)
  | chunk (id text : String) (body : NodeBody)
  | other (id : String) (body : NodeBody)
  deriving DecidableEq, Inhabited

namespace Node

/-- What identifies the node; the name, for an entity. -/
def id : Node → String
  | entity name _ => name
  | chunk id _ _ => id
  | other id _ => id

def body : Node → NodeBody
  | entity _ b => b
  | chunk _ _ b => b
  | other _ b => b

def kind : Node → NodeKind
  | entity .. => .entity
  | chunk .. => .chunk
  | other .. => .other

def label (n : Node) : String := n.body.label

def properties (n : Node) : Properties := n.body.properties

def embedding (n : Node) : Option Embedding := n.body.embedding

/-- The text that stands for the node: name, chunk text or identity. -/
def displayName : Node → String
  | entity name _ => name
  | chunk _ text _ => text
  | other id _ => id

/-- An entity with the default label. -/
def named (name : String) : Node := entity name { label := entityLabel }

/-- A chunk with its reserved label. -/
def textChunk (id text : String) : Node := chunk id text { label := chunkLabel }

/-- The node with another set of properties. -/
def withProperties (p : Properties) : Node → Node
  | entity name b => entity name { b with properties := p }
  | chunk id text b => chunk id text { b with properties := p }
  | other id b => other id { b with properties := p }

/-- The node with an embedding. -/
def withEmbedding (v : Embedding) : Node → Node
  | entity name b => entity name { b with embedding := some v }
  | chunk id text b => chunk id text { b with embedding := some v }
  | other id b => other id { b with embedding := some v }

end Node

/-- A labelled relation between two nodes, given by their identities. -/
structure Relation where
  label : String
  source : String
  target : String
  properties : Properties := .empty
  deriving DecidableEq, Inhabited

/-- A relation and the two nodes it joins. -/
structure Triplet where
  source : Node
  relation : Relation
  target : Node
  deriving DecidableEq, Inhabited

/-- `(subject)-[relation]->(object)`. -/
def arrow (subject relation object : String) : String :=
  "(" ++ subject ++ ")-[" ++ relation ++ "]->(" ++ object ++ ")"

/-- A triplet in one line. -/
def Triplet.display (t : Triplet) : String :=
  arrow t.source.displayName t.relation.label t.target.displayName

end GraphBase
