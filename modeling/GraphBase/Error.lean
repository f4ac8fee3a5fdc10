import GraphBase.Text.Quoted

/-!
# Causes of failure

Every operation of a store that can fail says why with one `Error`.  The causes fall
into three groups: settings that make no sense (`ConfigFault`), a database that
refuses a statement (`StorageFault`), and everything in between, such as a database
that cannot be reached or an embedding of the wrong dimension.

The wording of every cause is in `message`, and nowhere else.
-/

namespace GraphBase

/-- A setting that makes no sense. -/
inductive ConfigFault where
  | emptyConnection
  | connectionWithoutPath (connection : String)
  | foreignScheme (scheme : String)
  | sameTables (name : String)
  | zeroDimension
  | lookupWithoutFilter (table : String)
  deriving DecidableEq, Repr

/-- Why a database refuses a statement. -/
inductive StorageFault where
  /-- The statement cannot be run: unknown table or column, malformed text, wrong kind. -/
  | badStatement
  /-- Something is not allowed. -/
  | forbidden
  /-- The database may only be read. -/
  | readOnly
  /-- The description of the tables makes no sense any more. -/
  | damaged
  /-- The file cannot be opened. -/
  | cannotOpen
  /-- A cell does not fit the number of a row. -/
  | mismatch
  /-- The file holds something else. -/
  | notADatabase
  | foreignKey
  | notNull
  | unique
  /-- The number of a new row is that of another one. -/
  | numberTaken
  /-- The values that are handed over are too few or too many. -/
  | valueCount
  /-- A stored text does not decode. -/
  | undecodable
  /-- A stored cell has the wrong kind. -/
  | wrongKind
  deriving DecidableEq, Repr

/-- What a store cannot do. -/
inductive Unsupported where
  | structuredQuery
  /-- A session that gives up on purpose. -/
  | abort
  deriving DecidableEq, Repr

/-- Why an operation failed. -/
inductive Error where
  | config (fault : ConfigFault)
  | invalidCredentials (target : String)
  | unavailable (target : String)
  | storage (fault : StorageFault)
  | json
  | dimensionMismatch (expected actual : Nat)
  | invalidTableName (name : String)
  | unsupported (what : Unsupported)
  | sessionPoisoned
  deriving DecidableEq, Repr

namespace ConfigFault

def message : ConfigFault → String
  | emptyConnection => "connection string is empty"
  | connectionWithoutPath c =>
    "connection string " ++ Text.quoted c ++ " has no database path"
  | foreignScheme s =>
    "unsupported connection scheme " ++ Text.quoted s ++
      "; expected sqlite://<path> or sqlite::memory:"
  | sameTables name =>
    "entity and relationship tables must differ (both " ++ Text.quoted name ++ ")"
  | zeroDimension => "embedding dimension must be positive"
  | lookupWithoutFilter table => "get_or_create on " ++ table ++ " needs a filter"

end ConfigFault

namespace Unsupported

def message : Unsupported → String
  | structuredQuery => "structured queries are not supported by the property graph store"
  | abort => "abort"

end Unsupported

/-- The wording of a cause. -/
def Error.message : Error → String
  | config fault => "Configuration error: " ++ fault.message
  | invalidCredentials target =>
    "Could not connect to the database at " ++ target ++
      ". Please check if the connection string and credentials are correct."
  | unavailable target => "An error occurred while checking the availability of " ++ target
  | storage _ => "Storage error"
  | json => "JSON error"
  | dimensionMismatch expected actual =>
    "Embedding dimension mismatch: expected " ++ toString expected ++ ", got " ++
      toString actual
  | invalidTableName name => "Invalid table name: " ++ Text.quoted name
  | unsupported what => "Unsupported operation: " ++ what.message
  | sessionPoisoned => "Database session lock poisoned"

end GraphBase
