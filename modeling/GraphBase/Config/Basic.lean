import GraphBase.Json.Basic
import GraphBase.Sql.Schema
import GraphBase.Toml.Text

/-!
# Settings

The settings of a store say which database it opens, how its tables are called, how many
components its embeddings have, and after how many seconds a connection is replaced.  Every
setting has a default, so any of them may be missing.

Settings are read from JSON and from TOML, and written as TOML.  All forms have the same
fields; they differ in what numbers they have room for.
-/

namespace GraphBase

/-- The database of a store unless another one is set. -/
def defaultDatabase : String := "relgraph.db"

/-- The settings of a store. -/
structure StoreConfig where
  database : String := defaultDatabase
  entityTable : String := ({} : TripletSchema).entities
  relationshipTable : String := ({} : TripletSchema).relationships
  embeddingDim : Nat := defaultDimension
  /-- Zero stands for never. -/
  poolRecycleSecs : Nat := 300
  deriving DecidableEq, Repr, Inhabited

namespace StoreConfig

/-- The defaults with another database. -/
def withDatabase (database : String) : StoreConfig := { database }

/-- The age in seconds at which a connection is replaced, if it ever is. -/
def poolRecycle (c : StoreConfig) : Option Nat :=
  if c.poolRecycleSecs = 0 then none else some c.poolRecycleSecs

/-- The names of the settings, in the order in which they are written. -/
def fieldNames : List String :=
  ["database", "entity_table", "relationship_table", "embedding_dim", "pool_recycle_secs"]

/-- A setting that may be missing. -/
def settingOr {α β : Type} (default : α) (read : β → Option α) : Option β → Option α
  | none => some default
  | some b => read b

/-- Reads settings from what their fields hold, in the order of `fieldNames`. -/
def ofFields? {β : Type} (text? : β → Option String) (natural? : β → Option Nat) :
    List (Option β) → Option StoreConfig
  | [database, entityTable, relationshipTable, embeddingDim, poolRecycleSecs] => do
    let base : StoreConfig := {}
    let database ← settingOr base.database text? database
    let entityTable ← settingOr base.entityTable text? entityTable
    let relationshipTable ← settingOr base.relationshipTable text? relationshipTable
    let embeddingDim ← settingOr base.embeddingDim natural? embeddingDim
    let poolRecycleSecs ← settingOr base.poolRecycleSecs natural? poolRecycleSecs
    return { database, entityTable, relationshipTable, embeddingDim, poolRecycleSecs }
  | _ => none

/-- Reads settings from JSON. -/
def ofJson? (j : Json) : Option StoreConfig :=
  (j.fields? fieldNames).bind (ofFields? Json.string? Json.word64?)

/-- Reads settings from a TOML text; what is no setting is ignored. -/
def ofToml? (text : String) : Option StoreConfig :=
  (Toml.parse? text).bind fun members =>
    ofFields? Toml.string? Toml.natural? (fieldNames.map fun name => lookupName name members)

/-- Whether TOML has room for an integer. -/
def fitsToml (n : Nat) : Bool := n < 0x8000000000000000

/-- The settings as a TOML text, one to a line, `none` if a number is too large for it. -/
def toToml? (c : StoreConfig) : Option String :=
  if fitsToml c.embeddingDim && fitsToml c.poolRecycleSecs then
    let values := [Toml.writeText c.database, Toml.writeText c.entityTable,
      Toml.writeText c.relationshipTable, toString c.embeddingDim, toString c.poolRecycleSecs]
    some (String.join ((fieldNames.zip values).map fun (n, v) => n ++ " = " ++ v ++ "\n"))
  else none

end StoreConfig

end GraphBase
