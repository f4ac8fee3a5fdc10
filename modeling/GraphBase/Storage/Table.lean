import GraphBase.Error

/-!
# Tables and sessions

A table is the list of its rows in the order of their insertion, together with the last
number it has given out.  Numbers start at one, go up, and are never given out twice, so
the rows of a table are in ascending order of their numbers.

A *session* is a unit of work on some state: it either succeeds, with a result and a new
state, or fails with a cause and no state at all.  Whoever runs a session keeps the old
state in the second case, which is what a rollback is.

A database may refuse to be written to.  A session is told why, if that is so, and every
statement that writes begins with `Session.write`, where it fails before it looks at anything.
A session that gets through under a refusal has therefore not changed its state.
-/

namespace GraphBase

/-- Rows in the order of their insertion, and the last number given out. -/
structure Table (ρ : Type) where
  rows : List ρ := []
  lastId : Nat := 0
  deriving DecidableEq, Inhabited

namespace Table

variable {ρ : Type}

/-- The table without rows. -/
def empty : Table ρ := {}

/-- The number that the next row gets. -/
def nextId (t : Table ρ) : Nat := t.lastId + 1

/-- Appends a row, which is made from its number. -/
def append (t : Table ρ) (row : Nat → ρ) : Table ρ :=
  ⟨t.rows ++ [row t.nextId], t.nextId⟩

/-- Keeps the rows that satisfy a condition. -/
def keep (t : Table ρ) (p : ρ → Bool) : Table ρ := { t with rows := t.rows.filter p }

/-- Changes every row. -/
def mapRows (t : Table ρ) (f : ρ → ρ) : Table ρ := { t with rows := t.rows.map f }

@[simp] theorem rows_append (t : Table ρ) (row : Nat → ρ) :
    (t.append row).rows = t.rows ++ [row t.nextId] := rfl

@[simp] theorem lastId_append (t : Table ρ) (row : Nat → ρ) :
    (t.append row).lastId = t.lastId + 1 := rfl

@[simp] theorem rows_keep (t : Table ρ) (p : ρ → Bool) :
    (t.keep p).rows = t.rows.filter p := rfl

@[simp] theorem lastId_keep (t : Table ρ) (p : ρ → Bool) : (t.keep p).lastId = t.lastId := rfl

@[simp] theorem rows_mapRows (t : Table ρ) (f : ρ → ρ) :
    (t.mapRows f).rows = t.rows.map f := rfl

@[simp] theorem lastId_mapRows (t : Table ρ) (f : ρ → ρ) : (t.mapRows f).lastId = t.lastId := rfl

end Table

/-- Why a database refuses to be written to, if it does. -/
abbrev Refusal := Option StorageFault

/-- A unit of work on a state: a result and a new state, or a cause and no state. -/
abbrev Session (σ : Type) := ReaderT Refusal (StateT σ (Except Error))

/-- Fails with a fault of the database. -/
def Session.fault {σ α : Type} (f : StorageFault) : Session σ α := throw (.storage f)

/-- What was read, or the fault in it. -/
def Session.ofRead {σ α : Type} : Except StorageFault α → Session σ α
  | .ok a => return a
  | .error f => Session.fault f

/-- Fails if the state may not be written to. -/
def Session.write {σ : Type} : Session σ Unit := do
  match ← read with
  | some f => Session.fault f
  | none => return ()

/-- Reads from the state. -/
def Session.reads {σ α : Type} (f : σ → α) : Session σ α := fun _ s => .ok (f s, s)

/-- Reads from the state what may not make sense. -/
def Session.readsOk {σ α : Type} (f : σ → Except StorageFault α) : Session σ α := do
  Session.ofRead (f (← get))

/-- The counts of a store. -/
structure Stats where
  nodes : Nat
  relations : Nat
  embeddings : Nat
  deriving DecidableEq, Repr, Inhabited

/-- The counts for people, one to a line. -/
def Stats.display (s : Stats) : String :=
  "Database Statistics:\n  Nodes: " ++ toString s.nodes ++ "\n  Relations: " ++
    toString s.relations ++ "\n  Embeddings: " ++ toString s.embeddings ++ "\n"

/-- When a row changes, the time of its last change moves: to the time that the change
itself writes, if that is another one, and otherwise to now. -/
def touched (now old written : String) : String := if written = old then now else written

@[simp] theorem touched_self (now old : String) : touched now old old = now := by simp [touched]

end GraphBase
