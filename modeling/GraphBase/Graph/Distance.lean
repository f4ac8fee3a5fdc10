import GraphBase.Error
import GraphBase.Graph.Embedding
import GraphBase.Value.Cell

/-!
# Embeddings in statements

Statements compute with embeddings as cells.  An argument has to be bytes or empty, any
other cell makes the statement bad.  Without two embeddings there is no distance, and where
the distance does not exist, or is not a number, the answer is an empty cell.
-/

namespace GraphBase.Embedding

open GraphBase.Number

/-- The bytes that a statement computes with. -/
def argument : Cell → Except StorageFault (Option (List UInt8))
  | .null => .ok none
  | .blob bytes => .ok (some bytes)
  | _ => .error .badStatement

/-- The cosine distance of two cells. -/
def cellDistance? (a b : Cell) : Except StorageFault (Option Binary64) := do
  match ← argument a, ← argument b with
  | some x, some y =>
    match distance? (decode x) (decode y) with
    | some d => return if d.isNaN then none else some d
    | none => return none
  | _, _ => return none

/-- The number of components of a cell. -/
def cellDimension? (c : Cell) : Except StorageFault (Option Nat) := do
  return (← argument c).map dimension

end GraphBase.Embedding
