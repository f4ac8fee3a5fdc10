import GraphBase.Sql.PlainQuery
import GraphBase.Storage.Database

/-!
# Answers to plain queries

A plain query names a table of the database and its columns, whoever the table belongs to.
For this purpose every table is shown alike: as a list of columns and rows of cells, in the
order of the numbers of its rows.  The number itself is a column, under one of the names that
every table knows or under a name of the table's own.

## The order of an answer

Rows come out in the order in which they are scanned, and are sorted from there without
disturbing rows that are alike.  A table has indexes, and is scanned along one of them

* if the index begins with the first column to sort by, backwards if that one descends;
* if nothing is to be sorted and the index has all columns that the query looks at; of several
  ones the shortest is taken, and of these the latest.

Otherwise the rows are scanned by number.

A table cannot be emptied while something outside it refers to one of its rows.
-/

namespace GraphBase

/-! ## Order of cells -/

/-- Empty cells come first, then numbers, texts and bytes. -/
def Cell.rank : Cell → Nat
  | .null => 0
  | .integer _ | .real _ => 1
  | .text _ => 2
  | .blob _ => 3

/-- How two cells are ordered. -/
def Cell.order : Cell → Cell → Ordering
  | .integer i, .integer j => compare i.toInt j.toInt
  | .integer i, .real x => ((x.compareInt? i.toInt).getD .eq).swap
  | .real x, .integer i => (x.compareInt? i.toInt).getD .eq
  | .real x, .real y => (x.compare? y).getD .eq
  | .text s, .text t => compare s t
  | .blob a, .blob b => if a < b then .lt else if b < a then .gt else .eq
  | a, b => compare a.rank b.rank

/-! ## Tables as cells -/

/-- A table as columns and rows of cells.  The first cell of a row is its number. -/
structure TableView where
  /-- The names of the number, besides those that every table knows. -/
  numberNames : List String := []
  columns : List String
  indexes : List (List String) := []
  rows : List (List Cell)

/-- A text that may be missing as a cell. -/
def Cell.ofText? : Option String → Cell
  | some s => .text s
  | none => .null

/-- A number of a row as a cell. -/
def Cell.ofId (id : Int) : Cell := .integer (Int64.ofInt id)

/-- The columns that keep the times of a row. -/
def timeNames : List String := ["created_at", "updated_at"]

def EntityRow.cells (r : EntityRow) : List Cell :=
  [.ofId r.id, .text r.name, .text r.createdAt, .text r.updatedAt]

def RelationshipRow.cells (r : RelationshipRow) : List Cell :=
  [.ofId r.id, r.description, .ofId r.subject, .ofId r.object, .text r.createdAt,
    .text r.updatedAt]

def NodeRow.cells (number : Nat) (r : NodeRow) : List Cell :=
  [.ofId number, .text r.id, .ofText? r.text, .ofText? r.name, .text r.label,
    .text r.properties, r.embedding, .text r.createdAt, .text r.updatedAt]

def RelationRow.cells (r : RelationRow) : List Cell :=
  [.ofId r.id, .text r.label, .text r.source, .text r.target, .text r.properties,
    .text r.createdAt, .text r.updatedAt]

def KeyRow.cells (r : KeyRow) : List Cell := [.ofId r.id, r.key, r.value]

namespace TableView

def ofEntities (t : Table EntityRow) : TableView where
  numberNames := ["id"]
  columns := "name" :: timeNames
  indexes := [["name"]]
  rows := t.rows.map EntityRow.cells

def ofRelationships (t : Table RelationshipRow) : TableView where
  numberNames := ["id"]
  columns := ["description", "subject_id", "object_id"] ++ timeNames
  indexes := [["description", "subject_id", "object_id"], ["subject_id"], ["object_id"]]
  rows := t.rows.map RelationshipRow.cells

def ofNodes (nodes : List NodeRow) : TableView where
  columns := ["id", "text", "name", "label", "properties", "embedding"] ++ timeNames
  indexes := [["id"], ["name"], ["label"]]
  rows := nodes.zipIdx.map fun (r, n) => r.cells (n + 1)

def ofRelations (t : Table RelationRow) : TableView where
  numberNames := ["id"]
  columns := ["label", "source_id", "target_id", "properties"] ++ timeNames
  indexes := [["label", "source_id", "target_id"], ["source_id"], ["target_id"]]
  rows := t.rows.map RelationRow.cells

def ofKeys (t : KeyTable) : TableView where
  columns := ["k", "v"]
  rows := t.rows.map KeyRow.cells

/-- One row without columns, which is what literals are selected from. -/
def unit : TableView := { columns := [], rows := [[]] }

/-- The place of a column in a row. -/
def position? (view : TableView) (name : String) : Option Nat :=
  let name := Text.foldCase name
  match view.columns.idxOf? name with
  | some n => some (n + 1)
  | none =>
    if (["rowid", "_rowid_", "oid"] ++ view.numberNames).contains name ∧ !view.columns.isEmpty then
      some 0
    else none

/-! ## Terms -/

/-- Where the cell of a term comes from. -/
inductive Source where
  | cell (c : Cell)
  | column (n : Nat)
  deriving DecidableEq

/-- The cell in a row, empty beyond the last one. -/
def Source.value (row : List Cell) : Source → Cell
  | cell c => c
  | column n => row.getD n .null

/-- The source of a term. -/
def source? (view : TableView) : Term → Option Source
  | .literal c => some (.cell c)
  | .name s => (view.position? s).map .column
  | .quoted s => some (((view.position? s).map .column).getD (.cell (.text s)))

/-- The place of the selected term with a label. -/
def labelled? (terms : List Selected) (name : String) : Option Nat :=
  terms.findIdx? fun t => t.label.any fun l => Text.foldCase l = Text.foldCase name

/-- The source of a term that rows are ordered by: a selected term by its place or its label,
or anything else. -/
def sortSource? (view : TableView) (terms : List Selected) (sources : List Source) :
    Term → Option Source
  | .literal (.integer i) => if i.toInt < 1 then none else sources[i.toInt.toNat - 1]?
  | .literal c => some (.cell c)
  | .name s =>
    match labelled? terms s with
    | some n => sources[n]?
    | none => view.source? (.name s)
  | .quoted s =>
    match labelled? terms s with
    | some n => sources[n]?
    | none => view.source? (.quoted s)

/-! ## Scanning -/

/-- Whether a row may stand before another one. -/
def mayPrecede : List (Source × Bool) → List Cell → List Cell → Bool
  | [], _, _ => true
  | (source, descending) :: rest, a, b =>
    let o := (source.value a).order (source.value b)
    match if descending then o.swap else o with
    | .lt => true
    | .gt => false
    | .eq => mayPrecede rest a b

/-- The indexes as places. -/
def indexPlaces (view : TableView) : List (List Nat) :=
  view.indexes.map fun index => index.filterMap view.position?

/-- The index that has all of some columns; the number of a row is in every index. -/
def covering? (view : TableView) (used : List Nat) : Option (List Nat) :=
  let fits := view.indexPlaces.filter fun index => used.all fun n => n = 0 || index.contains n
  fits.reverse.foldl (fun best index =>
    match best with
    | some b => if index.length < b.length then some index else some b
    | none => some index) none

/-- The rows along an index. -/
def along (view : TableView) (index : List Nat) : List (List Cell) :=
  view.rows.mergeSort (mayPrecede (index.map fun n => (.column n, false)))

/-- The column that a source stands for. -/
def Source.column? : Source → Option Nat
  | cell _ => none
  | column n => some n

/-- The index to scan along when rows are sorted by a column first. -/
def leading? (view : TableView) (n : Nat) : Option (List Nat) :=
  if n = 0 then some [] else view.indexPlaces.find? fun index => index.head? = some n

/-- The rows in the order in which they are scanned. -/
def scan (view : TableView) (sources : List Source) (keys : List (Source × Bool)) :
    List (List Cell) :=
  match keys.findSome? fun (source, descending) => source.column?.map fun n => (n, descending) with
  | some (n, descending) =>
    match view.leading? n with
    | some index => if descending then (view.along index).reverse else view.along index
    | none => view.rows
  | none => ((view.covering? (sources.filterMap Source.column?)).map view.along).getD view.rows

/-- Some terms for the rows of a table, in an order. -/
def select (view : TableView) (terms : List Selected) (order : List SortKey) :
    Option (List (List Cell)) := do
  let sources ← terms.mapM fun t => view.source? t.term
  let keys ← order.mapM fun k => do
    return (← view.sortSource? terms sources k.term, k.descending)
  let rows := (view.scan sources keys).mergeSort (mayPrecede keys)
  return rows.map fun row => sources.map (·.value row)

end TableView

namespace Database

/-- The table of a name. -/
def view? (db : Database) (name : String) : Option TableView :=
  match lookupName name db.entityTables, lookupName name db.linkTables with
  | some t, _ => some (.ofEntities t)
  | none, some l => some (.ofRelationships l.table)
  | none, none =>
    if name = nodeTable then db.graph.map fun g => .ofNodes g.nodes
    else if name = relationTable then db.graph.map fun g => .ofRelations g.relations
    else if name = KeyTable.name then db.keys.map .ofKeys
    else none

/-! ## Emptying -/

/-- Whether a row of an entity table is referred to. -/
def hasLinksTo (db : Database) (entities : String) : Bool :=
  db.linkTables.any fun l => l.2.owner == entities && !l.2.table.rows.isEmpty

/-- Empties the tables of the property graph store. -/
def clearGraph (name : String) (g : GraphTables) : Except StorageFault GraphTables :=
  if name = relationTable then .ok { g with relations := g.relations.keep fun _ => false }
  else if name = nodeTable then
    if g.relations.rows.isEmpty then .ok { g with nodes := [] } else .error .foreignKey
  else .error .badStatement

/-- Empties a table. -/
def clear (db : Database) (name : String) : Except StorageFault Database :=
  match lookupName name db.entityTables, lookupName name db.linkTables with
  | some t, _ =>
    if db.hasLinksTo name then .error .foreignKey
    else
      let empty := t.keep fun _ => false
      .ok { db with entityTables := replaceName name empty db.entityTables }
  | none, some l =>
    let empty := { l with table := l.table.keep fun _ => false }
    .ok { db with linkTables := replaceName name empty db.linkTables }
  | none, none =>
    if name = KeyTable.name ∧ db.keys.isSome then
      .ok { db with keys := some {} }
    else
      match db.graph with
      | some g => (clearGraph name g).map fun g => { db with graph := some g }
      | none => .error .badStatement

/-- Answers a query with rows of cells. -/
def answer (q : PlainQuery) : Session Database (List (List Cell)) := do
  let db ← get
  match q with
  | .select terms table order =>
    let view := match table with
      | some name => db.view? (Text.foldCase name)
      | none => some .unit
    match view.bind fun v => v.select terms order with
    | some rows => return rows
    | none => Session.fault .badStatement
  | .clear table =>
    let name := Text.foldCase table
    if (db.view? name).isNone then Session.fault .badStatement
    else
      Session.write
      set (← Session.ofRead (db.clear name))
      return []

end Database

end GraphBase
