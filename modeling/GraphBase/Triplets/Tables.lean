import GraphBase.Storage.Table
import GraphBase.Value.Cell

/-!
# The tables of the triplet store

A triplet store has two tables.  An *entity* is a number and a name, and no two entities
have the same name.  A *relationship* is a description and the numbers of its subject and
its object; no two relationships agree in all three, and both ends exist.

## Statements

The statements of this module keep these rules, by failing where one would be broken:

* `insertEntity` and `rename` refuse a name that is taken;
* `insertRelationship` refuses a relationship that exists, and an end that does not;
* `deleteEntities` refuses to delete an entity that a relationship refers to.

Every statement that writes takes the current time, which it puts into the rows that it
inserts or changes and into no others.

The store itself only writes descriptions that are texts.  Others may have put bytes there;
such a relationship counts like any other, but it cannot be read (`readDescription`).

## Surroundings

Several stores may keep their tables in one database, and two of them may share a table.
Then a relationship table may belong to another entity table than the one beside it, and
relationships elsewhere may refer to the entities here.  `Surroundings` says what has to be known
of this; a database with one triplet store has none of it.
-/

namespace GraphBase

/-- A row of the entity table. -/
structure EntityRow where
  id : Nat
  name : String
  createdAt : String
  updatedAt : String
  deriving DecidableEq, Inhabited

/-- A row of the relationship table. -/
structure RelationshipRow where
  id : Nat
  /-- A text, or bytes. -/
  description : Cell
  subject : Nat
  object : Nat
  createdAt : String
  updatedAt : String
  deriving DecidableEq, Inhabited

/-- The description of a relationship, if it can be read. -/
def RelationshipRow.readDescription (r : RelationshipRow) : Except StorageFault String :=
  match r.description with
  | .text s => .ok s
  | _ => .error .wrongKind

/-- What the rest of the database has to say about the two tables. -/
structure Surroundings where
  /-- The numbers that an end may have, if the relationships belong to other entities. -/
  ends : Option (List Nat) := none
  /-- The entities that relationships in other tables refer to. -/
  pinned : List Nat := []
  deriving DecidableEq, Inhabited

/-- The two tables of a triplet store. -/
structure TripletTables where
  entities : Table EntityRow := {}
  relationships : Table RelationshipRow := {}
  surroundings : Surroundings := {}
  deriving DecidableEq, Inhabited

namespace TripletTables

/-! ## Looking up -/

/-- The entity of a name. -/
def entity? (t : TripletTables) (name : String) : Option EntityRow :=
  t.entities.rows.find? fun e => e.name == name

/-- The entity of a number. -/
def entityById? (t : TripletTables) (id : Nat) : Option EntityRow :=
  t.entities.rows.find? fun e => e.id == id

/-- The relationship of a description and two ends. -/
def relationship? (t : TripletTables) (description : Cell) (subject object : Nat) :
    Option RelationshipRow :=
  t.relationships.rows.find? fun r =>
    r.description == description && r.subject == subject && r.object == object

/-- Whether an entity of that number exists. -/
def hasEntity (t : TripletTables) (id : Nat) : Bool := t.entities.rows.any fun e => e.id == id

/-- Whether a relationship refers to the entity of a number. -/
def refersTo (t : TripletTables) (id : Nat) : Bool :=
  t.relationships.rows.any fun r => r.subject == id || r.object == id

/-- Whether a relationship may end at an entity of that number. -/
def acceptsEnd (t : TripletTables) (id : Nat) : Bool :=
  match t.surroundings.ends with
  | none => t.hasEntity id
  | some ids => ids.contains id

/-- Whether the entity of a number may not be deleted. -/
def isPinned (t : TripletTables) (id : Nat) : Bool :=
  (t.surroundings.ends.isNone && t.refersTo id) || t.surroundings.pinned.contains id

/-- The numbers of the entities with one of the names. -/
def idsOf (t : TripletTables) (names : List String) : List Nat :=
  (t.entities.rows.filter fun e => names.contains e.name).map (·.id)

/-- The counts of the store; it keeps no embeddings. -/
def stats (t : TripletTables) : Stats :=
  ⟨t.entities.rows.length, t.relationships.rows.length, 0⟩

/-! ## Writing -/

/-- Inserts an entity. -/
def insertEntity (now name : String) : Session TripletTables EntityRow := do
  Session.write
  let t ← get
  if (t.entity? name).isSome then Session.fault .unique
  else
    let row : EntityRow := ⟨t.entities.nextId, name, now, now⟩
    set { t with entities := t.entities.append fun _ => row }
    return row

/-- Inserts a relationship. -/
def insertRelationship (now : String) (description : Cell) (subject object : Nat) :
    Session TripletTables RelationshipRow := do
  Session.write
  let t ← get
  if (t.relationship? description subject object).isSome then Session.fault .unique
  else if !(t.acceptsEnd subject && t.acceptsEnd object) then Session.fault .foreignKey
  else
    let row : RelationshipRow := ⟨t.relationships.nextId, description, subject, object, now, now⟩
    set { t with relationships := t.relationships.append fun _ => row }
    return row

/-- Deletes the relationships that satisfy a condition and counts them. -/
def deleteRelationships (p : RelationshipRow → Bool) : Session TripletTables Nat := do
  Session.write
  let t ← get
  set { t with relationships := t.relationships.keep fun r => !p r }
  return (t.relationships.rows.filter p).length

/-- Deletes the entities that satisfy a condition and counts them. -/
def deleteEntities (p : EntityRow → Bool) : Session TripletTables Nat := do
  Session.write
  let t ← get
  let gone := t.entities.rows.filter p
  if gone.any fun e => t.isPinned e.id then Session.fault .foreignKey
  else
    set { t with entities := t.entities.keep fun e => !p e }
    return gone.length

/-- Changes the entity of a name, if there is one, and moves the time of its last change. -/
def updateEntity (now name : String) (f : EntityRow → EntityRow) (t : TripletTables) :
    TripletTables :=
  let change (e : EntityRow) : EntityRow :=
    if e.name = name then { f e with updatedAt := touched now e.updatedAt (f e).updatedAt } else e
  { t with entities := t.entities.mapRows change }

/-- Gives the entity of one name another one. -/
def rename (now fromName toName : String) : Session TripletTables Unit := do
  Session.write
  let t ← get
  if fromName ≠ toName ∧ (t.entity? fromName).isSome ∧ (t.entity? toName).isSome then
    Session.fault .unique
  else set (t.updateEntity now fromName fun e => { e with name := toName })

/-- Writes the two times of the entity of a name; neither may be missing. -/
def stamp (now name : String) (created updated : Option String) : Session TripletTables Unit := do
  Session.write
  let t ← get
  match created, updated with
  | some created, some updated =>
    set (t.updateEntity now name fun e => { e with createdAt := created, updatedAt := updated })
  | _, _ => if (t.entity? name).isSome then Session.fault .notNull else return ()

end TripletTables

end GraphBase
