/-!
# Walks

A traversal follows edges from a set of seeds.  Its *first level* holds the edges that
leave a seed; the next level holds, for each edge of a level and in its order, the edges
that go on from where that edge ends.  So level `k` has one entry for every walk of
exactly `k` edges from the seeds, the entry being the last edge of the walk.  Nothing is
removed: walks may meet, go around in circles and repeat themselves.

## Depth and limit

The depth bounds the number of levels, but the first level is always there.  A limit
bounds the number of entries over all levels together, and a store applies it to the whole
list.  As entries come level by level, an entry is kept only if all entries of the levels
before it are kept.
-/

namespace GraphBase

/-- An edge at the end of a walk: how many edges the walk has, where the edge begins, where
it ends, and what it is. -/
structure PathRow (κ τ : Type) where
  depth : Nat
  source : κ
  target : κ
  triplet : τ
  deriving DecidableEq, Inhabited

/-- The row with something else in place of its triplet. -/
def PathRow.map {κ τ υ : Type} (f : PathRow κ τ → υ) (row : PathRow κ τ) : PathRow κ υ :=
  { row with triplet := f row }

namespace Walk

/-- The depth of a traversal unless another one is asked for. -/
def defaultDepth : Nat := 2

/-- The limit of a traversal unless another one is asked for. -/
def defaultLimit : Nat := 30

variable {ε : Type}

/-- The levels of an expansion, up to a number of them or to the first empty one. -/
def levels (next : ε → List ε) : Nat → List ε → List (List ε)
  | 0, _ => []
  | _ + 1, [] => []
  | n + 1, level => level :: levels next n (level.flatMap next)

/-- The entries of all levels, each with the number of its level. -/
def tagged (start : Nat) : List (List ε) → List (Nat × ε)
  | [] => []
  | level :: rest => level.map (start, ·) ++ tagged (start + 1) rest

/-- The last edges of the walks from a first level, level by level, up to a depth. -/
def ends (next : ε → List ε) (depth : Nat) (first : List ε) : List (Nat × ε) :=
  tagged 1 (levels next (max depth 1) first)

@[simp] theorem levels_zero (next : ε → List ε) (level : List ε) : levels next 0 level = [] := rfl

@[simp] theorem levels_nil (next : ε → List ε) (n : Nat) : levels next n [] = [] := by
  cases n <;> rfl

theorem levels_succ (next : ε → List ε) (n : Nat) {level : List ε} (h : level ≠ []) :
    levels next (n + 1) level = level :: levels next n (level.flatMap next) := by
  cases level with
  | nil => exact absurd rfl h
  | cons _ _ => rfl

@[simp] theorem tagged_nil (start : Nat) : tagged (ε := ε) start [] = [] := rfl

@[simp] theorem tagged_cons (start : Nat) (level : List ε) (rest : List (List ε)) :
    tagged start (level :: rest) = level.map (start, ·) ++ tagged (start + 1) rest := rfl

end Walk

end GraphBase
