import GraphBase.Graph.Tables
import GraphBase.Named
import GraphBase.Sql.Schema
import GraphBase.Storage.KeyTable
import GraphBase.Triplets.Tables

/-!
# Databases

A database holds the tables of any number of triplet stores, which differ in the names of
their tables, the tables of one property graph store, and perhaps a table of keys and
values.  The case of a table's name does not matter.

## Creating tables

A store creates its tables when it is opened, and each only if it is missing.  So a table
that is there already is taken as it is.  If it is a table of another kind, an index on it
cannot be created, and opening fails; likewise if a table and an index would share a name,
or if a name is a word of the query language or reserved.  One more name cannot be used,
because the description of such a table is misread.

## The view of a store

Every store works on its own tables only.  `inTriplets` and `inGraph` run a session on the
tables of one store as a session on the whole database, which leaves all other tables as
they are.  A relationship table remembers the entity table that it was created with, since
its ends are entities of that table whoever else may use it.
-/

namespace GraphBase

/-- A relationship table, and the entity table that its ends belong to. -/
structure LinkTable where
  owner : String
  table : Table RelationshipRow := {}
  deriving DecidableEq, Inhabited

/-- All tables of a database. -/
structure Database where
  entityTables : List (String × Table EntityRow) := []
  linkTables : List (String × LinkTable) := []
  graph : Option GraphTables := none
  keys : Option KeyTable := none
  deriving DecidableEq, Inhabited

namespace Database

/-! ## Names -/

/-- Whether a name may not be the name of a new table.  The trigger of a table named `sqlite`
would have a reserved name. -/
def isReserved (name : String) : Bool :=
  Token.reservedWords.contains name || name == "sqlite" ||
    Text.startsWith "sqlite_".toList name.toList

/-- The names of the tables. -/
def tableNames (db : Database) : List String :=
  db.entityTables.map (·.1) ++ db.linkTables.map (·.1) ++
    (if db.graph.isSome then [nodeTable, relationTable] else []) ++
    (if db.keys.isSome then [KeyTable.name] else [])

/-- The names of the indexes. -/
def indexNames (db : Database) : List String :=
  (db.linkTables.flatMap fun l =>
    (TripletSchema.indexNames { relationships := l.1 }).map Text.foldCase) ++
    (if db.graph.isSome then PropertySchema.indexNames else [])

/-! ## Creating tables -/

/-- Lets a name pass that a new table may have. -/
def checkFree (db : Database) (name : String) : Except StorageFault Unit :=
  if isReserved name || db.indexNames.contains name then .error .badStatement else .ok ()

/-- The name of a table whose description cannot be read any more once it is written, because the
name looks like the beginning of a condition. -/
def unreadableName : String := "if"

/-- Lets a name pass whose table can be described. -/
def checkReadable (name : String) : Session Database Unit := do
  Session.write
  if name = unreadableName then Session.fault .damaged

/-- Creates an entity table if there is no table of that name. -/
def createEntities (name : String) : Session Database Unit := do
  let db ← get
  if isReserved name then Session.fault .badStatement
  else if db.tableNames.contains name then return ()
  else
    Session.ofRead (db.checkFree name)
    checkReadable name
    set { db with entityTables := db.entityTables ++ [(name, Table.empty)] }

/-- Creates a relationship table, with its indexes, if there is no table of that name. -/
def createLinks (name owner : String) : Session Database Unit := do
  let db ← get
  if isReserved name then Session.fault .badStatement
  else if db.tableNames.contains name then
    if (lookupName name db.linkTables).isSome then return () else Session.fault .badStatement
  else
    Session.ofRead (db.checkFree name)
    checkReadable name
    let indexes := (TripletSchema.indexNames { relationships := name }).map Text.foldCase
    if indexes.any db.tableNames.contains then Session.fault .badStatement
    else set { db with linkTables := db.linkTables ++ [(name, LinkTable.mk owner .empty)] }

/-- Creates the tables of a triplet store. -/
def createTriplets (s : TripletSchema) : Session Database Unit := do
  createEntities (Text.foldCase s.entities)
  createLinks (Text.foldCase s.relationships) (Text.foldCase s.entities)

/-- Creates the tables of the property graph store. -/
def createGraph : Session Database Unit := do
  let db ← get
  match db.graph with
  | some _ => return ()
  | none =>
    let names := [nodeTable, relationTable]
    if names.any (fun n => db.tableNames.contains n || db.indexNames.contains n) ||
        PropertySchema.indexNames.any db.tableNames.contains then
      Session.fault .badStatement
    else
      Session.write
      set { db with graph := some {} }

/-- Creates the table of keys and values; it may not be there yet. -/
def createKeys : Session Database Unit := do
  let db ← get
  if db.tableNames.contains KeyTable.name then Session.fault .badStatement
  else
    Session.write
    set { db with keys := some {} }

/-! ## The view of a store -/

/-- The entities to which relationships outside one table refer. -/
def pinnedBy (db : Database) (entities relationships : String) : List Nat :=
  (db.linkTables.filter fun l => l.2.owner = entities ∧ l.1 ≠ relationships).flatMap fun l =>
    l.2.table.rows.flatMap fun r => [r.subject, r.object]

/-- The numbers of the entities of a table. -/
def entityIds (db : Database) (name : String) : List Nat :=
  match lookupName name db.entityTables with
  | some t => t.rows.map (·.id)
  | none => []

/-- The tables of a triplet store. -/
def tripletTables? (db : Database) (s : TripletSchema) : Option TripletTables :=
  let e := Text.foldCase s.entities
  let r := Text.foldCase s.relationships
  match lookupName e db.entityTables, lookupName r db.linkTables with
  | some entities, some links =>
    some {
      entities
      relationships := links.table
      surroundings := {
        ends := if links.owner = e then none else some (db.entityIds links.owner)
        pinned := db.pinnedBy e r } }
  | _, _ => none

/-- The database with other tables of a triplet store. -/
def withTripletTables (db : Database) (s : TripletSchema) (t : TripletTables) : Database :=
  let e := Text.foldCase s.entities
  let r := Text.foldCase s.relationships
  { db with
    entityTables := replaceName e t.entities db.entityTables
    linkTables := db.linkTables.map fun l =>
      if l.1 = r then (l.1, { l.2 with table := t.relationships }) else l }

/-- Runs a session on the tables of a triplet store. -/
def inTriplets {α : Type} (s : TripletSchema) (body : Session TripletTables α) :
    Session Database α := fun refusal db =>
  match db.tripletTables? s with
  | none => .error (.storage .badStatement)
  | some t => (body refusal t).map fun (a, t') => (a, db.withTripletTables s t')

/-- Runs a session on the tables of the property graph store. -/
def inGraph {α : Type} (body : Session GraphTables α) : Session Database α := fun refusal db =>
  match db.graph with
  | none => .error (.storage .badStatement)
  | some t => (body refusal t).map fun (a, t') => (a, { db with graph := some t' })

/-- Runs a session on the table of keys and values. -/
def inKeys {α : Type} (body : Session KeyTable α) : Session Database α := fun refusal db =>
  match db.keys with
  | none => .error (.storage .badStatement)
  | some t => (body refusal t).map fun (a, t') => (a, { db with keys := some t' })

/-- Finds or makes a row of the table of keys and values. -/
def getOrCreateKey (filter defaults : List (String × Cell)) : Session Database (Int × Bool) :=
  if filter.isEmpty then throw (.config (.lookupWithoutFilter KeyTable.name))
  else inKeys (KeyTable.getOrCreate filter defaults)

end Database

end GraphBase
