import GraphBase.Graph.Store
import GraphBase.Sql.Fragment
import GraphBase.Traversal.RelMap

/-!
# What can be reached in a property graph

The traversal of a property graph starts at the identities of its seeds, each counted once,
and follows relations from source to target.  It has two forms: one list in order of depth
(`reachable`), and one list for each seed (`relMap`).

Labels may be ignored.  An ignored relation is shown in neither form, but the traversal
goes through it, and it counts towards the limit.
-/

namespace GraphBase.GraphTables

/-- The relations that leave an identity. -/
def leaving (t : GraphTables) (id : String) : List RelationRow :=
  t.relations.rows.filter fun r => r.source == id

/-- Reads a row of a traversal. -/
def readPathRow (row : Nat × Joined) : Except StorageFault (PathRow String Triplet) :=
  row.2.triplet.map fun x => ⟨row.1, x.relation.source, x.relation.target, x⟩

/-- The different identities among some, in order. -/
def sortedIds (ids : List String) : List String := (ids.mergeSort fun a b => a ≤ b).eraseDups

/-- The rows of the traversal from some identities. -/
def pathRows (t : GraphTables) (seeds : List String) (depth limit : Nat) :
    Except StorageFault (List (PathRow String Triplet)) :=
  let first := (sortedIds seeds).flatMap t.leaving
  let all := Walk.ends (fun r => t.leaving r.target) depth first
  let joined := all.filterMap fun row => (t.join? row.2).map fun j => (row.1, j)
  (joined.take (Sql.limitOperand limit)).mapM readPathRow

/-- Whether a triplet is shown, given the labels that are not. -/
def isShown (ignored : List String) (x : Triplet) : Bool := !ignored.contains x.relation.label

/-- What can be reached from the seeds, in order of depth. -/
def reachable (t : GraphTables) (seeds : List String) (depth limit : Nat)
    (ignored : List String) : Except StorageFault (List Triplet) :=
  (t.pathRows seeds depth limit).map fun rows =>
    (rows.map (·.triplet)).filter (isShown ignored)

/-- What can be reached from each seed. -/
def relMap (t : GraphTables) (seeds : List String) (depth limit : Nat)
    (ignored : List String) : Except StorageFault (RelMap String Triplet) :=
  (t.pathRows seeds depth limit).map (RelMap.ofRows (isShown ignored))

end GraphBase.GraphTables
