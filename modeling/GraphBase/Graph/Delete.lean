import GraphBase.Graph.Store

/-!
# Deleting from a property graph

Every part of a selection deletes on its own.  Names and identities delete nodes together
with the relations that end at them; labels delete relations; properties delete the
relations that have them all, then the nodes that have them all.

A statement with too many conditions cannot be made.  So a selection of very many properties
fails when its turn comes to the properties, and nothing is deleted by its other parts either.

What a relation leaves behind when it goes is looked at last: an end of a deleted relation
is removed as well if its row is bare and no relation is left that ends there.  No other
row is removed for want of relations.
-/

namespace GraphBase.GraphTables

/-- Deletes nodes by their identities, together with their relations, and gives back the
ends of those. -/
def deleteNodes (ids : List String) : Session GraphTables (List String) := do
  if ids.isEmpty then return []
  let ends ← deleteRelations fun r => ids.contains r.source || ids.contains r.target
  discard <| deleteRows fun n => ids.contains n.id
  return ends

/-- The identities of the nodes with one of the names. -/
def idsOfNames (t : GraphTables) (names : List String) : List String :=
  (t.nodes.filter fun n => match n.name with
    | some name => names.contains name
    | none => false).map (·.id)

/-- Deletes the relations that have all the properties, then the nodes that have them all,
and gives back the ends of the relations that are gone. -/
def deleteMatching (properties : Properties) : Session GraphTables (List String) := do
  Session.ofRead (Sql.prepare (nodeConditions properties []))
  let t ← get
  let rows ← Session.ofRead <|
    filterOk (fun r : RelationRow => matchesAll r.properties properties.entries)
      t.relations.rows
  let numbers := rows.map (·.id)
  let ends ← deleteRelations fun r => numbers.contains r.id
  let nodes ← Session.ofRead <|
    filterOk (fun n : NodeRow => matchesAll n.properties properties.entries) t.nodes
  return ends ++ (← deleteNodes (nodes.map (·.id)))

/-- Removes those of some rows that are bare and that no relation ends at. -/
def removeBare (ids : List String) : Session GraphTables Nat := do
  if ids.isEmpty then return 0
  let t ← get
  deleteRows fun n => ids.contains n.id && n.isBare && !t.refersTo n.id

/-- Deletes what each part of a selection selects, and the bare rows this leaves behind. -/
def delete (s : Selection) : Session GraphTables Unit := do
  if !s.isEmpty then
    let t ← get
    let byName ← deleteNodes (t.idsOfNames s.entityNames)
    let byId ← deleteNodes s.ids
    let byLabel ← if s.relationNames.isEmpty then pure []
      else deleteRelations fun r => s.relationNames.contains r.label
    let byProperty ← if s.properties.isEmpty then pure [] else deleteMatching s.properties
    discard <| removeBare (byName ++ byId ++ byLabel ++ byProperty)

end GraphBase.GraphTables
