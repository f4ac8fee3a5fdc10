import GraphBase.Graph.Distance
import GraphBase.Graph.Store
import GraphBase.Sql.Fragment

/-!
# Nearest neighbours

The rows that can be found by distance are those with a name and an embedding.  A row whose
distance from the point does not exist, or is not a number, is no candidate.  Candidates
come in order of their distances as they are computed, those of one distance in the order of
the table, and a distance is rounded to single precision only when it is given out.

Rounded distances may be equal where the computed ones are not, and the order of the table is
nothing to rely on.  So the hits of one distance are listed by identity (`listHits`).
-/

namespace GraphBase.GraphTables

open GraphBase.Number

/-- The distance of a row from a point, `none` where there is none. -/
def distanceOf? (point : Embedding) (row : NodeRow) : Except StorageFault (Option Binary64) :=
  Embedding.cellDistance? row.embedding (.blob (Embedding.encode point))

/-- The named rows with a distance from a point. -/
def candidates (t : GraphTables) (point : Embedding) :
    Except StorageFault (List (Binary64 × NodeRow)) := do
  let named := t.nodes.filter fun n => n.name.isSome
  let measured ← named.mapM fun n => (distanceOf? point n).map fun d => d.map (·, n)
  return measured.filterMap id

/-- Whether one candidate may come before another: it is not farther away. -/
def isNearer (a b : Binary64 × NodeRow) : Bool := a.1.compare? b.1 != some .gt

/-- The nodes nearest to a point, with their distances. -/
def nearest (t : GraphTables) (point : Embedding) (count : Nat) :
    Except StorageFault (List (Node × Binary32)) := do
  if count = 0 then return []
  else
    let all ← t.candidates point
    ((all.mergeSort isNearer).take (Sql.limitOperand count)).mapM fun c =>
      c.2.node.map fun n => (n, Binary32.ofBinary64 c.1)

/-- Whether one hit may be listed before another: it is nearer, or as near and its identity is not
behind the other one. -/
def isListedBefore (a b : Node × Binary32) : Bool :=
  match a.2.compare? b.2 with
  | some .lt => true
  | some .gt => false
  | _ => a.1.id ≤ b.1.id

/-- The hits of an answer as they are listed. -/
def listHits (answer : List (Node × Binary32)) : List (Node × Binary32) :=
  answer.mergeSort isListedBefore

end GraphBase.GraphTables
