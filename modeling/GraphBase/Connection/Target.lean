import GraphBase.Error
import GraphBase.Text.Blank
import GraphBase.Text.Find

/-!
# Where a connection string points

A connection string names a database in memory, a file, or a URI that the database
itself takes apart.  Blanks around it are dropped first.  Then, in this order:

* one of three spellings of the database in memory;
* `file:…`, a URI, kept as it is;
* `sqlite://path` and `sqlite:path`, a file, whose path may not be empty;
* any other scheme, which is refused;
* a bare path, a file.

The target prints in one spelling of its own, and reading that spelling gives the
target again.

## Recycling

A connection to a file may be closed and opened again without harm.  A database in
memory is gone with its connection, so a target in memory is never recycled.
-/

namespace GraphBase

/-- Where a connection string points. -/
inductive Target where
  | memory
  | file (path : String)
  | uri (text : String)
  deriving DecidableEq, Repr, Inhabited

namespace Target

/-- The spellings of the database in memory. -/
def memoryNames : List String := ["sqlite::memory:", ":memory:", "sqlite://:memory:"]

/-- The path of a connection string that names a file by its scheme. -/
def schemePath? (cs : List Char) : Option (List Char) :=
  match Text.dropStart? "sqlite://".toList cs with
  | some path => some path
  | none => Text.dropStart? "sqlite:".toList cs

/-- Reads a connection string. -/
def parse (connection : String) : Except Error Target :=
  let s := Text.trim connection
  let cs := s.toList
  if s.isEmpty then .error (.config .emptyConnection)
  else if s ∈ memoryNames then .ok .memory
  else if Text.startsWith "file:".toList cs then .ok (.uri s)
  else
    match schemePath? cs with
    | some [] => .error (.config (.connectionWithoutPath s))
    | some path => .ok (.file (String.ofList path))
    | none =>
      match Text.splitFirst? "://".toList cs with
      | some (scheme, _) => .error (.config (.foreignScheme (String.ofList scheme)))
      | none => .ok (.file s)

/-- The spelling of a target. -/
def display : Target → String
  | memory => "sqlite::memory:"
  | file path => "sqlite://" ++ path
  | uri text => text

/-- Whether a connection to the target may be closed and opened again. -/
def isRecyclable : Target → Bool
  | memory => false
  | file _ => true
  | uri text =>
    !(Text.startsWith "file::memory:".toList text.toList ||
      Text.contains "mode=memory".toList text.toList)

/-- The name of the kind of target. -/
def kindName : Target → String
  | memory => "memory"
  | file _ => "file"
  | uri _ => "uri"

/-- The path or URI of a target; the database in memory has none. -/
def value : Target → String
  | memory => ""
  | file path => path
  | uri text => text

/-- What a failed opening means.  A file that is something else, a refused permission and
a refused authorization are taken for wrong credentials, by the low byte of the result
code; any other failure means that the database is not available. -/
def classify (target : Target) (code : Option Int) : Error :=
  match code with
  | some c =>
    if c % 256 = 26 ∨ c % 256 = 23 ∨ c % 256 = 3 then .invalidCredentials target.display
    else .unavailable target.display
  | none => .unavailable target.display

end Target

/-- The result code of a fault; what the database has no part in has none. -/
def StorageFault.code? : StorageFault → Option Int
  | badStatement => some 1
  | forbidden => some 3
  | readOnly => some 8
  | damaged => some 11
  | cannotOpen => some 14
  | mismatch => some 20
  | notADatabase => some 26
  | foreignKey => some 787
  | notNull => some 1299
  | unique => some 2067
  | numberTaken => some 2579
  | valueCount => none
  | undecodable => none
  | wrongKind => none

end GraphBase
