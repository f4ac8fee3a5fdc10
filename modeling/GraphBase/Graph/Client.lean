import GraphBase.Config.Basic
import GraphBase.Connection.Engine
import GraphBase.Graph.Delete
import GraphBase.Graph.Nearest
import GraphBase.Graph.Reach

/-!
# A property graph store on an engine

A client of a property graph store runs its operations as sessions of an engine, one session
for each operation.  What can be answered without the database is: an empty selection
selects nothing, nothing can be reached from no seeds, an embedding of the wrong dimension is
refused, and a request for no neighbours is met.

The dimension is checked before anything is opened.
-/

namespace GraphBase

open GraphBase.Number

/-- A client of a property graph store, who knows the dimension of its embeddings. -/
structure PropertyStore where
  schema : PropertySchema
  deriving DecidableEq, Inhabited

namespace PropertyStore

/-- Opens the store of some settings. -/
def start (h : Host) (c : StoreConfig) : Except Error (PropertyStore × Engine) × Host :=
  match PropertySchema.ofDimension c.embeddingDim with
  | .error e => (.error e, h)
  | .ok schema =>
    match Engine.start h c.database c.poolRecycle Database.createGraph with
    | (.error e, h') => (.error e, h')
    | (.ok engine, h') => (.ok (⟨schema⟩, engine), h')

/-- Runs a session on the tables of the store. -/
def session {α : Type} (_ : PropertyStore) (body : Session GraphTables α) : Access α :=
  Engine.session (Database.inGraph body)

/-- Whether the store runs structured queries. -/
def supportsStructuredQueries (_ : PropertyStore) : Bool := false

/-- Whether the store finds nodes by their embeddings. -/
def supportsVectorQueries (_ : PropertyStore) : Bool := true

/-! ## Writing -/

/-- The record of an identity, of a bare row if there was none, and whether it was made. -/
def getOrCreateNode (store : PropertyStore) (now id : String) : Access (NodeRecord × Bool) :=
  store.session (GraphTables.getOrCreateNode now id)

/-- Writes a batch of nodes. -/
def upsertNodes (store : PropertyStore) (now : String) (nodes : List Node) : Access Unit :=
  match store.schema.checkEmbeddings nodes with
  | .error e => throw e
  | .ok () => store.session (GraphTables.writeNodes now nodes)

/-- Writes a batch of relations. -/
def upsertRelations (store : PropertyStore) (now : String) (relations : List Relation) :
    Access Unit :=
  store.session (GraphTables.writeRelations now relations)

/-- Deletes what a selection selects. -/
def delete (store : PropertyStore) (s : Selection) : Access Unit :=
  if s.isEmpty then return () else store.session (GraphTables.delete s)

/-! ## Reading -/

/-- The record of an identity, if there is one. -/
def findNode (store : PropertyStore) (id : String) : Access (Option NodeRecord) :=
  store.session (Session.readsOk fun t => t.record? id)

/-- The nodes that have all the properties and one of the identities. -/
def nodes (store : PropertyStore) (properties : Properties) (ids : List String) :
    Access (List Node) :=
  store.session (Session.readsOk fun t => t.nodesWith properties ids)

/-- The triplets that a selection selects. -/
def triplets (store : PropertyStore) (s : Selection) : Access (List Triplet) :=
  if s.isEmpty then return [] else store.session (Session.readsOk fun t => t.triplets s)

/-- The rows of the traversal from some seeds. -/
def pathRows (store : PropertyStore) (seeds : List Node) (depth limit : Nat) :
    Access (List (PathRow String Triplet)) :=
  if seeds.isEmpty then return []
  else store.session (Session.readsOk fun t => t.pathRows (seeds.map Node.id) depth limit)

/-- What can be reached from the seeds, in order of depth. -/
def reachable (store : PropertyStore) (seeds : List Node) (depth limit : Nat)
    (ignored : List String) : Access (List Triplet) :=
  if seeds.isEmpty then return []
  else store.session (Session.readsOk fun t => t.reachable (seeds.map Node.id) depth limit ignored)

/-- What can be reached from each seed. -/
def relMap (store : PropertyStore) (seeds : List Node) (depth limit : Nat)
    (ignored : List String) : Access (RelMap String Triplet) :=
  if seeds.isEmpty then return []
  else store.session (Session.readsOk fun t => t.relMap (seeds.map Node.id) depth limit ignored)

/-- The nodes nearest to a point, with their distances. -/
def nearest (store : PropertyStore) (point : Embedding) (count : Nat) :
    Access (List (Node × Binary32)) :=
  match store.schema.checkEmbedding (some point) with
  | .error e => throw e
  | .ok () =>
    if count = 0 then return [] else store.session (Session.readsOk fun t => t.nearest point count)

/-- A structured query, which this store does not answer. -/
def structuredQuery (_ : PropertyStore) (_ : String) : Access (List (List Cell)) :=
  throw (.unsupported .structuredQuery)

/-- The counts of the store. -/
def stats (store : PropertyStore) : Access Stats := store.session (Session.reads GraphTables.stats)

end PropertyStore

end GraphBase
