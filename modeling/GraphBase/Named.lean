/-!
# Items under names

Tables in a database, engines on a host and members of a TOML table are kept as lists of
items under names, in the order in which the names came up.  A name stands for the first
item under it, and whoever keeps such a list sees to it that there is no second.
-/

namespace GraphBase

variable {α : Type}

/-- The item under a name. -/
def lookupName (name : String) (items : List (String × α)) : Option α :=
  (items.find? fun e => e.1 == name).map (·.2)

/-- Replaces the item under a name. -/
def replaceName (name : String) (item : α) (items : List (String × α)) :
    List (String × α) :=
  items.map fun e => if e.1 = name then (name, item) else e

end GraphBase
