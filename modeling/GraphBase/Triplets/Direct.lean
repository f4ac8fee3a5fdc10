import GraphBase.Triplets.Tables

/-!
# Changing rows directly

Rows can be changed without the store, by statements that select rows and write to them.  The two
statements of this module are for columns that none of the rules of the tables is about.  So they
never break a rule, whatever they write; an entity gets another name by `TripletTables.rename`.
-/

namespace GraphBase.TripletTables

/-- Changes the entities that satisfy a condition, moves the times of their last change, and
counts them. -/
def updateEntities (now : String) (p : EntityRow → Bool) (f : EntityRow → EntityRow) :
    Session TripletTables Nat := do
  Session.write
  let t ← get
  let change (e : EntityRow) : EntityRow :=
    if p e then { f e with updatedAt := touched now e.updatedAt (f e).updatedAt } else e
  set { t with entities := t.entities.mapRows change }
  return (t.entities.rows.filter p).length

/-- Changes the relationships that satisfy a condition, likewise. -/
def updateRelationships (now : String) (p : RelationshipRow → Bool)
    (f : RelationshipRow → RelationshipRow) : Session TripletTables Nat := do
  Session.write
  let t ← get
  let change (r : RelationshipRow) : RelationshipRow :=
    if p r then { f r with updatedAt := touched now r.updatedAt (f r).updatedAt } else r
  set { t with relationships := t.relationships.mapRows change }
  return (t.relationships.rows.filter p).length

end GraphBase.TripletTables
