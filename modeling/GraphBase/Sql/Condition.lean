import GraphBase.Error

/-!
# How deep a condition is

A statement is refused before it looks at anything if an expression in it is too deep.  Lists of
values add nothing to the depth, however long they are.  But conditions that are joined one after
the other do: with each of them the expression grows by one.  So a statement that asks for many
properties at once cannot be made.

Of an expression only the `Shape` counts here, and of that only the depth.  Conditions that are
joined are collected from the left, so each goes on top of all that came before.  Once the first
of them is the deepest, every further one adds one (`depth_conjunction_of_le`).

There is a limit on the number of bound values as well, which is 32766.  It is left aside: whatever
is said about statements here is said of those that have not too many values.
-/

namespace GraphBase.Sql

/-- The shape of an expression.  A name or a value is a leaf, and an operator or a call joins what
it is applied to. -/
inductive Shape where
  | leaf
  | join (a b : Shape)
  deriving DecidableEq

namespace Shape

/-- How many expressions stand inside one another. -/
def depth : Shape → Nat
  | leaf => 1
  | join a b => max a.depth b.depth + 1

/-- A column behind the name of its table. -/
def column : Shape := join leaf leaf

/-- That a property in a column has a value: a call with the column and a path, and a comparison. -/
def hasProperty (column : Shape) : Shape := join (join column leaf) leaf

/-- That a column has one of some values. -/
def isIn (column : Shape) : Shape := join column leaf

/-- Conditions that all have to hold, behind a first one. -/
def conjunction (c : Shape) (rest : List Shape) : Shape := rest.foldl join c

/-- Conditions that are no deeper than what they follow add one each. -/
theorem depth_conjunction_of_le {c : Shape} {rest : List Shape}
    (h : ∀ x ∈ rest, x.depth ≤ c.depth) :
    (conjunction c rest).depth = c.depth + rest.length := by
  induction rest generalizing c with
  | nil => rfl
  | cons x rest ih =>
    rw [List.forall_mem_cons] at h
    have hjoin : (join c x).depth = c.depth + 1 := by rw [depth, Nat.max_eq_left h.1]
    rw [conjunction, List.foldl_cons, ← conjunction, ih fun y hy => ?_, hjoin, List.length_cons]
    · omega
    · rw [hjoin]
      exact Nat.le_succ_of_le (h.2 y hy)

end Shape

/-- The largest depth that an expression can have. -/
def depthMax : Nat := 1000

/-- Prepares a statement with some conditions, which all have to hold. -/
def prepare : List Shape → Except StorageFault Unit
  | [] => .ok ()
  | c :: rest =>
    if (Shape.conjunction c rest).depth ≤ depthMax then .ok () else .error .badStatement

/-- There is one way in which preparing can fail. -/
theorem prepare_cases (conditions : List Shape) :
    prepare conditions = .ok () ∨ prepare conditions = .error .badStatement := by
  rcases conditions with _ | ⟨c, rest⟩
  · exact .inl rfl
  · rw [prepare]
    split
    · exact .inl rfl
    · exact .inr rfl

theorem prepare_eq_error {conditions : List Shape} (h : prepare conditions ≠ .ok ()) :
    prepare conditions = .error .badStatement := (prepare_cases conditions).resolve_left h

/-- **A statement can be prepared with as many conditions as the first leaves room for**, if none is
deeper than this one. -/
theorem prepare_cons_eq_ok {c : Shape} {rest : List Shape} (h : ∀ x ∈ rest, x.depth ≤ c.depth) :
    prepare (c :: rest) = .ok () ↔ c.depth + rest.length ≤ depthMax := by
  rw [prepare, Shape.depth_conjunction_of_le h]
  split <;> simp_all

/-- The first two conditions are as good as one. -/
theorem prepare_cons_cons (c x : Shape) (rest : List Shape) :
    prepare (c :: x :: rest) = prepare (c.join x :: rest) := rfl

end GraphBase.Sql
