import GraphBase.Config.Basic
import GraphBase.Connection.Engine
import GraphBase.Triplets.Query

/-!
# A triplet store on an engine

A client of a triplet store runs its operations as sessions of an engine.  Every operation
is one session, except that deleting a fact takes a second one if the first removed
anything, and that asking what can be reached from no seeds takes none.

The names of the tables are checked before anything is opened.  A table named `path` is
accepted, but no traversal can be run beside it.
-/

namespace GraphBase

/-- A client of a triplet store, who knows the names of its tables. -/
structure TripletStore where
  schema : TripletSchema
  deriving DecidableEq, Inhabited

namespace TripletStore

/-- Opens the store of some settings. -/
def start (h : Host) (c : StoreConfig) : Except Error (TripletStore × Engine) × Host :=
  match TripletSchema.ofNames c.entityTable c.relationshipTable with
  | .error e => (.error e, h)
  | .ok schema =>
    match Engine.start h c.database c.poolRecycle (Database.createTriplets schema) with
    | (.error e, h') => (.error e, h')
    | (.ok engine, h') => (.ok (⟨schema⟩, engine), h')

/-- Runs a session on the tables of the store. -/
def session {α : Type} (store : TripletStore) (body : Session TripletTables α) : Access α :=
  Engine.session (Database.inTriplets store.schema body)

/-- The entity of a name, made if there is none, and whether it was made. -/
def getOrCreateEntity (store : TripletStore) (now name : String) : Access (EntityRow × Bool) :=
  store.session (TripletTables.getOrCreateEntity now name)

/-- The entity of a name. -/
def findEntity (store : TripletStore) (name : String) : Access (Option EntityRow) :=
  store.session (Session.reads fun t => t.entity? name)

/-- Adds a fact. -/
def upsert (store : TripletStore) (now : String) (fact : Fact) : Access Unit :=
  store.session (TripletTables.upsert now fact)

/-- The relations of a subject and their objects. -/
def relations (store : TripletStore) (subject : String) : Access (List (String × String)) :=
  store.session (Session.readsOk fun t => t.relations subject)

/-- Whether a table has the name under which a traversal keeps its rows, so that the two
cannot be told apart. -/
def hidesPath (store : TripletStore) : Bool :=
  [store.schema.entities, store.schema.relationships].any fun n => Text.foldCase n == "path"

/-- Runs a traversal. -/
def traverse {α : Type} (store : TripletStore) (read : TripletTables → Except StorageFault α) :
    Access α :=
  store.session
    (if store.hidesPath then Session.fault .badStatement else Session.readsOk read)

/-- The rows of the traversal from some seeds. -/
def pathRows (store : TripletStore) (seeds : List String) (depth limit : Nat) :
    Access (List (PathRow String Fact)) :=
  if seeds.isEmpty then return []
  else store.traverse fun t => t.pathRows seeds depth limit

/-- What can be reached from each seed. -/
def relMap (store : TripletStore) (seeds : List String) (depth limit : Nat) :
    Access (RelMap String Fact) :=
  if seeds.isEmpty then return []
  else store.traverse fun t => t.relMap seeds depth limit

/-- Deletes a fact, then its entities if nothing refers to them any more. -/
def delete (store : TripletStore) (fact : Fact) : Access Unit := do
  if (← store.session (TripletTables.removeFact fact)) ≠ 0 then
    store.session (TripletTables.removeUnreferenced [fact.subject, fact.object])

/-- Runs a single statement. -/
def query (store : TripletStore) (now : String) (s : Statement) : Access (List (List Cell)) :=
  store.session (s.run now)

/-- The counts of the store. -/
def stats (store : TripletStore) : Access Stats :=
  store.session (Session.reads TripletTables.stats)

end TripletStore

end GraphBase
