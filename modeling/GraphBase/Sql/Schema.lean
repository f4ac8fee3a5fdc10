import GraphBase.Error

/-!
# Schemas

A schema names the tables of a store and writes the statements that create them.
Every statement may be run again without effect: each one creates something only if
it is missing.

The triplet store has two tables whose names may be chosen.  Names become part of
statements, so only plain identifiers pass, and the two have to differ.  The property
graph store has two tables with fixed names and a dimension for its embeddings, which
has to be positive.

Each table has a trigger that moves `updated_at` on every update that does not set it.
-/

namespace GraphBase

/-- A letter of a plain identifier. -/
def isNameStart (c : Char) : Bool :=
  ('a' ≤ c && c ≤ 'z') || ('A' ≤ c && c ≤ 'Z') || c == '_'

/-- A letter or digit of a plain identifier. -/
def isNamePart (c : Char) : Bool := isNameStart c || ('0' ≤ c && c ≤ '9')

/-- A plain identifier: a letter or underscore, then letters, digits and underscores. -/
def isTableName (name : String) : Bool :=
  match name.toList with
  | [] => false
  | c :: cs => isNameStart c && cs.all isNamePart

/-- Lets plain identifiers pass. -/
def checkTableName (name : String) : Except Error Unit :=
  if isTableName name then .ok () else .error (.invalidTableName name)

namespace Sql

/-- The trigger of a table. -/
def touchTrigger (table : String) : String :=
  "\nCREATE TRIGGER IF NOT EXISTS " ++ table ++ "_touch_updated_at\n" ++
  "AFTER UPDATE ON " ++ table ++ "\n" ++
  "FOR EACH ROW WHEN NEW.updated_at = OLD.updated_at\n" ++
  "BEGIN\n" ++
  "    UPDATE " ++ table ++ " SET updated_at = CURRENT_TIMESTAMP WHERE rowid = NEW.rowid;\n" ++
  "END\n"

/-- An index on one column, if it is missing. -/
def index (name table column : String) : String :=
  "CREATE INDEX IF NOT EXISTS " ++ name ++ " ON " ++ table ++ "(" ++ column ++ ")"

/-- The two columns that keep the time of creation and of the last change. -/
def timeColumns : String :=
  "    created_at TEXT NOT NULL DEFAULT CURRENT_TIMESTAMP,\n" ++
  "    updated_at TEXT NOT NULL DEFAULT CURRENT_TIMESTAMP"

end Sql

/-- The tables of the triplet store. -/
structure TripletSchema where
  entities : String := "entities"
  relationships : String := "relationships"
  deriving DecidableEq, Repr, Inhabited

namespace TripletSchema

/-- The schema of two chosen names.  The first name is checked first. -/
def ofNames (entities relationships : String) : Except Error TripletSchema := do
  checkTableName entities
  checkTableName relationships
  if entities = relationships then throw (.config (.sameTables entities))
  return { entities, relationships }

/-- The names of the two indexes. -/
def indexNames (s : TripletSchema) : List String :=
  ["idx_" ++ s.relationships ++ "_subject", "idx_" ++ s.relationships ++ "_object"]

/-- The statements that create what is missing. -/
def statements (s : TripletSchema) : List String :=
  let e := s.entities
  let r := s.relationships
  [ "\nCREATE TABLE IF NOT EXISTS " ++ e ++ " (\n" ++
      "    id INTEGER PRIMARY KEY AUTOINCREMENT,\n" ++
      "    name TEXT NOT NULL UNIQUE,\n" ++
      Sql.timeColumns ++ "\n)\n",
    "\nCREATE TABLE IF NOT EXISTS " ++ r ++ " (\n" ++
      "    id INTEGER PRIMARY KEY AUTOINCREMENT,\n" ++
      "    description TEXT NOT NULL,\n" ++
      "    subject_id INTEGER NOT NULL REFERENCES " ++ e ++ "(id),\n" ++
      "    object_id INTEGER NOT NULL REFERENCES " ++ e ++ "(id),\n" ++
      Sql.timeColumns ++ ",\n" ++
      "    UNIQUE(description, subject_id, object_id)\n)\n",
    Sql.index ("idx_" ++ r ++ "_subject") r "subject_id",
    Sql.index ("idx_" ++ r ++ "_object") r "object_id",
    Sql.touchTrigger e,
    Sql.touchTrigger r ]

end TripletSchema

/-- The node table of the property graph store. -/
def nodeTable : String := "pkg_nodes"

/-- The relation table of the property graph store. -/
def relationTable : String := "pkg_relations"

/-- The dimension of embeddings unless another one is set. -/
def defaultDimension : Nat := 1536

/-- The tables of the property graph store and the dimension of its embeddings. -/
structure PropertySchema where
  dimension : Nat := defaultDimension
  deriving DecidableEq, Repr, Inhabited

namespace PropertySchema

/-- The schema of a dimension. -/
def ofDimension (dimension : Nat) : Except Error PropertySchema :=
  if dimension = 0 then .error (.config .zeroDimension) else .ok { dimension }

/-- The names of the indexes. -/
def indexNames : List String :=
  ["idx_pkg_nodes_name", "idx_pkg_nodes_label", "idx_pkg_relations_source",
    "idx_pkg_relations_target"]

/-- The statements that create what is missing. -/
def statements (_ : PropertySchema) : List String :=
  let n := nodeTable
  let r := relationTable
  [ "\nCREATE TABLE IF NOT EXISTS " ++ n ++ " (\n" ++
      "    id TEXT PRIMARY KEY,\n" ++
      "    text TEXT,\n" ++
      "    name TEXT,\n" ++
      "    label TEXT NOT NULL DEFAULT 'node',\n" ++
      "    properties TEXT NOT NULL DEFAULT '\x7b\x7d',\n" ++
      "    embedding BLOB,\n" ++
      Sql.timeColumns ++ "\n)\n",
    "\nCREATE TABLE IF NOT EXISTS " ++ r ++ " (\n" ++
      "    id INTEGER PRIMARY KEY AUTOINCREMENT,\n" ++
      "    label TEXT NOT NULL,\n" ++
      "    source_id TEXT NOT NULL REFERENCES " ++ n ++ "(id),\n" ++
      "    target_id TEXT NOT NULL REFERENCES " ++ n ++ "(id),\n" ++
      "    properties TEXT NOT NULL DEFAULT '\x7b\x7d',\n" ++
      Sql.timeColumns ++ ",\n" ++
      "    UNIQUE(label, source_id, target_id)\n)\n",
    Sql.index ("idx_" ++ n ++ "_name") n "name",
    Sql.index ("idx_" ++ n ++ "_label") n "label",
    Sql.index ("idx_" ++ r ++ "_source") r "source_id",
    Sql.index ("idx_" ++ r ++ "_target") r "target_id",
    Sql.touchTrigger n,
    Sql.touchTrigger r ]

end PropertySchema

end GraphBase
