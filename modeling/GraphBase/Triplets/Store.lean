import GraphBase.Sql.Fragment
import GraphBase.Traversal.RelMap
import GraphBase.Triplets.Tables

/-!
# The triplet store

A triplet store keeps *facts*, a subject and an object joined by a relation, all three of
them names.  To a user it is a set of facts in the order of their insertion and a set of
entities, which contains every subject and every object.

* `upsert` adds a fact, and its entities where they are missing; a fact that is there
  already stays as it is.
* Deleting a fact takes two sessions.  The first, `removeFact`, removes the relationship.
  The second, `removeUnreferenced`, removes those of its two entities that nothing refers
  to any more.  In between, someone else may have referred to them again; the second
  session looks at the tables as they are when it runs.
* `relations` lists the facts of a subject, `pathRows` expands the neighbourhood of a set of
  seeds.
-/

namespace GraphBase

/-- A subject and an object, joined by a relation. -/
structure Fact where
  subject : String
  relation : String
  object : String
  deriving DecidableEq, Repr, Inhabited

namespace TripletTables

/-! ## Writing -/

/-- The entity of a name, made if there is none, and whether it was made. -/
def getOrCreateEntity (now name : String) : Session TripletTables (EntityRow × Bool) := do
  let t ← get
  match t.entity? name with
  | some row => return (row, false)
  | none => return (← insertEntity now name, true)

/-- Adds a fact. -/
def upsert (now : String) (fact : Fact) : Session TripletTables Unit := do
  let (subject, _) ← getOrCreateEntity now fact.subject
  let (object, _) ← getOrCreateEntity now fact.object
  let t ← get
  match t.relationship? (.text fact.relation) subject.id object.id with
  | some _ => return ()
  | none => discard <| insertRelationship now (.text fact.relation) subject.id object.id

/-- Removes the relationship of a fact and counts what it removed. -/
def removeFact (fact : Fact) : Session TripletTables Nat := do
  let t ← get
  deleteRelationships fun r =>
    r.description == .text fact.relation && (t.idsOf [fact.subject]).contains r.subject &&
      (t.idsOf [fact.object]).contains r.object

/-- Whether a relationship refers to the entity of a name. -/
def isReferenced (t : TripletTables) (name : String) : Bool := (t.idsOf [name]).any t.refersTo

/-- Removes, one after the other, the entities of some names to which nothing refers. -/
def removeUnreferenced : List String → Session TripletTables Unit
  | [] => return ()
  | name :: rest => do
    let t ← get
    if !t.isReferenced name then
      discard <| deleteEntities fun e => e.name == name
    removeUnreferenced rest

/-! ## Reading -/

/-- The relations of a subject and their objects, in the order of their insertion. -/
def relations (t : TripletTables) (subject : String) :
    Except StorageFault (List (String × String)) :=
  let rows := t.relationships.rows.filter fun r => (t.idsOf [subject]).contains r.subject
  (rows.filterMap fun r => (t.entityById? r.object).map fun o => (r, o)).mapM fun (r, o) =>
    r.readDescription.map fun description => (description, o.name)

/-- The relationships that leave the entity of a number. -/
def leaving (t : TripletTables) (id : Nat) : List RelationshipRow :=
  t.relationships.rows.filter fun r => r.subject == id

/-- A relationship row with the rows of its ends. -/
structure Linked where
  relationship : RelationshipRow
  subject : EntityRow
  object : EntityRow

/-- A relationship row with the rows of its ends, if both are there. -/
def linked? (t : TripletTables) (r : RelationshipRow) : Option Linked :=
  match t.entityById? r.subject, t.entityById? r.object with
  | some s, some o => some ⟨r, s, o⟩
  | _, _ => none

/-- Reads a fact. -/
def Linked.fact (l : Linked) : Except StorageFault Fact :=
  l.relationship.readDescription.map fun description =>
    ⟨l.subject.name, description, l.object.name⟩

/-- Reads a row of a traversal. -/
def readPathRow (row : Nat × Linked) : Except StorageFault (PathRow String Fact) :=
  row.2.fact.map fun f => ⟨row.1, f.subject, f.object, f⟩

/-- The rows of the traversal from some seeds. -/
def pathRows (t : TripletTables) (seeds : List String) (depth limit : Nat) :
    Except StorageFault (List (PathRow String Fact)) :=
  let first := (t.idsOf seeds).flatMap t.leaving
  let all := Walk.ends (fun r => t.leaving r.object) depth first
  let joined := all.filterMap fun row => (t.linked? row.2).map fun l => (row.1, l)
  (joined.take (Sql.limitOperand limit)).mapM readPathRow

/-- What can be reached from each seed. -/
def relMap (t : TripletTables) (seeds : List String) (depth limit : Nat) :
    Except StorageFault (RelMap String Fact) :=
  (t.pathRows seeds depth limit).map (RelMap.ofRows fun _ => true)

end TripletTables

end GraphBase
