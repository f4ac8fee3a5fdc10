import GraphBase.Traversal.Walk

/-!
# Relation maps

The rows of a traversal do not say which seed they belong to.  A relation map does: it
lists, for each seed, the triplets of the rows that can be reached from it.

## Attribution

Rows are put in order of depth first, rows of one depth keeping their order.  Then one pass
goes through them and remembers which seeds have arrived where, and in how many steps:

* a row of depth one or less belongs to the node where it begins;
* a row of a greater depth `k` belongs to every seed that has arrived, in `k - 1` steps, at
  the node where the row begins, and to no seed if none has;
* whatever a row belongs to has arrived, in as many steps as the row is deep, at the node
  where the row ends.

A row may be hidden.  A hidden row is listed under no seed, but it leads on all the same.
-/

namespace GraphBase

variable {κ τ : Type} [DecidableEq κ]

/-- A seed has arrived at a node in a number of steps. -/
structure Arrival (κ : Type) where
  node : κ
  depth : Nat
  seed : κ
  deriving DecidableEq

/-- The rows in order of depth; rows of one depth keep their order. -/
def sortByDepth (rows : List (PathRow κ τ)) : List (PathRow κ τ) :=
  rows.mergeSort fun a b => a.depth ≤ b.depth

/-- The seeds that have arrived at a node in a number of steps. -/
def seedsAt (arrivals : List (Arrival κ)) (node : κ) (depth : Nat) : List κ :=
  (arrivals.filter fun a => a.node = node ∧ a.depth = depth).map (·.seed)

/-- The seeds that a row belongs to. -/
def seedsOf (arrivals : List (Arrival κ)) (row : PathRow κ τ) : List κ :=
  if row.depth ≤ 1 then [row.source] else seedsAt arrivals row.source (row.depth - 1)

/-- The arrivals after a row. -/
def arrive (arrivals : List (Arrival κ)) (row : PathRow κ τ) : List (Arrival κ) :=
  let new := (seedsOf arrivals row).map fun s => ⟨row.target, max row.depth 1, s⟩
  new.filter (fun a => !arrivals.contains a) ++ arrivals

/-- The rows, each with the seeds that it belongs to. -/
def attributed (arrivals : List (Arrival κ)) :
    List (PathRow κ τ) → List (PathRow κ τ × List κ)
  | [] => []
  | row :: rest => (row, seedsOf arrivals row) :: attributed (arrive arrivals row) rest

/-- The triplets of each seed; a seed without triplets has no entry. -/
abbrev RelMap (κ τ : Type) := List (κ × List τ)

namespace RelMap

/-- The triplets listed under a seed. -/
def get (m : RelMap κ τ) (seed : κ) : List τ :=
  ((m.find? fun e => e.1 = seed).map (·.2)).getD []

/-- Lists the rows that are shown under the seeds that they belong to. -/
def ofAttributed (rows : List (PathRow κ τ × List κ)) : RelMap κ τ :=
  (rows.flatMap (·.2)).eraseDups.map fun s =>
    (s, (rows.filter fun r => r.2.contains s).map fun r => r.1.triplet)

/-- The relation map of the rows of a traversal; `keep` says which triplets are shown. -/
def ofRows (keep : τ → Bool) (rows : List (PathRow κ τ)) : RelMap κ τ :=
  ofAttributed ((attributed [] (sortByDepth rows)).filter fun r => keep r.1.triplet)

end RelMap

end GraphBase
