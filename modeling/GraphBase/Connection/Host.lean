import GraphBase.Connection.Locator
import GraphBase.Storage.Database

/-!
# The host

A host holds what outlives a connection: files and directories, and the databases in memory
that are shared under a name.  A file holds a database or plain bytes; a file of at most one
byte is an empty database, and any other plain file is none.

A shared database in memory counts the connections that use it.  It appears with the first
and disappears with the last.  A shared cache does so as well, and the first of its
connections settles whether the others may write.

## Looking up a file

Whoever reads or writes a file as a text walks to it step by step (`spot`): every step but the
last has to lead into a directory that is there, and `..` leads out of one again.  A slash
behind the last step asks for a directory.  A database is looked up in another way: its path
is resolved first, and only what is left of it has to be there (`attach?`).
-/

namespace GraphBase

/-- What a file holds. -/
inductive FileContent where
  | database (db : Database)
  | bytes (content : List UInt8)
  deriving DecidableEq, Inhabited

/-- The database in a file. -/
def FileContent.asDatabase : FileContent → Except StorageFault Database
  | .database db => .ok db
  | .bytes [] | .bytes [_] => .ok {}
  | .bytes _ => .error .notADatabase

/-- The text in a file, if it is one. -/
def FileContent.text? : FileContent → Option String
  | .database _ => none
  | .bytes content => String.fromUTF8? ⟨content.toArray⟩

/-- A database in memory and the number of its connections. -/
structure SharedDatabase where
  name : MemoryName
  users : Nat
  content : Database
  deriving DecidableEq, Inhabited

/-- A cache that connections to one place share. -/
structure SharedCache where
  fileSystem : String
  place : Place
  users : Nat
  mayWrite : Bool
  deriving DecidableEq, Inhabited

/-- Why a text could not be read from a file or written to it. -/
inductive FileFault where
  | missing
  | notDirectory
  | directory
  | nameTooLong
  /-- The character zero is in the name. -/
  | unnameable
  | notText
  deriving DecidableEq, Repr

/-- The wording of a cause. -/
def FileFault.message : FileFault → String
  | missing => "No such file or directory (os error 2)"
  | notDirectory => "Not a directory (os error 20)"
  | directory => "Is a directory (os error 21)"
  | nameTooLong => "File name too long (os error 36)"
  | unnameable => "file name contained an unexpected NUL byte"
  | notText => "stream did not contain valid UTF-8"

/-- What outlives a connection. -/
structure Host where
  files : List (Path × FileContent) := []
  directories : List Path := []
  shared : List SharedDatabase := []
  caches : List SharedCache := []
  deriving DecidableEq, Inhabited

namespace Host

/-! ## Files -/

/-- The file at a path. -/
def file? (h : Host) (path : Path) : Option FileContent :=
  (h.files.find? fun f => f.1 == path).map (·.2)

/-- Whether there is a directory at a path.  The working directory, the directories above
it and the root are always there. -/
def isDirectory (h : Host) (path : Path) : Bool :=
  path.all (· == Path.above) || path == Path.root || h.directories.contains path

/-- The host with something else in a file; a file that is missing is added. -/
def writeFile (h : Host) (path : Path) (content : FileContent) : Host :=
  { h with files := (h.files.filter fun f => f.1 != path) ++ [(path, content)] }

/-- The host with one more directory, and the directories that it is in. -/
def makeDirectory (h : Host) (path : Path) : Host :=
  { h with directories := h.directories ++ (List.range path.length).map fun n => path.take (n + 1) }

/-! ## Walking to a file -/

/-- Where a file name leads to: a name in a directory, or a directory itself. -/
structure Spot where
  directory : Path
  name? : Option FileName
  /-- Whether a slash follows the name. -/
  hasSlash : Bool

/-- The most bytes of a file name, all of its steps together. -/
def longestPath : Nat := 4095

/-- Takes one step into a directory. -/
def stepInto (h : Host) (directory : Path) (step : FileName) : Except FileFault Path :=
  let next := directory.join step
  if step = [] ∨ step = Path.here ∨ step = Path.above then .ok next
  else if Path.longestName < step.length then .error .nameTooLong
  else if h.isDirectory next then .ok next
  else if (h.file? next).isSome then .error .notDirectory
  else .error .missing

/-- Walks to where a file name leads. -/
def spot (h : Host) (name : String) : Except FileFault Spot :=
  let bytes := Text.utf8 name
  if bytes.contains 0 then .error .unnameable
  else if bytes = [] then .error .missing
  else if longestPath < bytes.length then .error .nameTooLong
  else do
    let steps := Path.steps bytes
    let body := (steps.reverse.dropWhile (· == [])).reverse
    let directory ← body.dropLast.foldlM h.stepInto (Path.start bytes)
    match body.getLast? with
    | none => return ⟨directory, none, true⟩
    | some last =>
      if last = Path.here ∨ last = Path.above then return ⟨directory.join last, none, true⟩
      else return ⟨directory, some last, body.length < steps.length⟩

/-- What is at a spot: a file, or a directory. -/
def open? (h : Host) (s : Spot) : Except FileFault FileContent :=
  match s.name? with
  | none => .error .directory
  | some name =>
    let path := s.directory.join name
    if Path.longestName < name.length then .error .nameTooLong
    else if h.isDirectory path then .error .directory
    else
      match h.file? path with
      | none => .error .missing
      | some content => if s.hasSlash then .error .notDirectory else .ok content

/-- Whether there is anything under a file name. -/
def nameExists (h : Host) (name : String) : Bool :=
  match h.spot name with
  | .error _ => false
  | .ok s =>
    match h.open? s with
    | .ok _ | .error .directory => true
    | .error _ => false

/-- The text of a file. -/
def readText (h : Host) (name : String) : Except FileFault String := do
  match (← h.open? (← h.spot name)).text? with
  | some text => return text
  | none => throw .notText

/-- The host with a text in a file, whose directory has to be there. -/
def writeText (h : Host) (name text : String) : Except FileFault Host := do
  let s ← h.spot name
  if s.hasSlash then throw .directory
  else
    match s.name?, h.open? s with
    | some last, .ok _ | some last, .error .missing =>
      return h.writeFile (s.directory.join last) (.bytes (Text.utf8 text))
    | _, .error fault => throw fault
    | none, .ok _ => throw .directory

/-! ## Databases in memory -/

/-- The shared database of a name. -/
def shared? (h : Host) (name : MemoryName) : Option SharedDatabase :=
  h.shared.find? fun s => s.name == name

/-- One more connection to a shared database. -/
def share (h : Host) (name : MemoryName) : Host :=
  match h.shared? name with
  | some _ =>
    { h with shared := h.shared.map fun s =>
      if s.name = name then { s with users := s.users + 1 } else s }
  | none => { h with shared := h.shared ++ [⟨name, 1, {}⟩] }

/-- One connection less to a shared database. -/
def unshare (h : Host) (name : MemoryName) : Host :=
  let left := h.shared.map fun s => if s.name = name then { s with users := s.users - 1 } else s
  { h with shared := left.filter fun s => s.users != 0 }

/-! ## Opening -/

/-- Whether a cache is that of a locator. -/
def isCacheOf (l : Locator) (c : SharedCache) : Bool :=
  c.fileSystem == l.fileSystem && c.place == l.place

/-- The cache that a locator joins, if there is one. -/
def cache? (h : Host) (l : Locator) : Option SharedCache :=
  if l.isShared then h.caches.find? (isCacheOf l) else none

/-- One more connection to a cache. -/
def joinCache (h : Host) (l : Locator) : Host :=
  if !l.isShared then h
  else
    match h.cache? l with
    | some _ =>
      { h with caches := h.caches.map fun c =>
        if isCacheOf l c then { c with users := c.users + 1 } else c }
    | none => { h with caches := h.caches ++ [⟨l.fileSystem, l.place, 1, l.mayWrite⟩] }

/-- One connection less to a cache. -/
def leaveCache (h : Host) (l : Locator) : Host :=
  if !l.isShared then h
  else
    let left := h.caches.map fun c =>
      if isCacheOf l c then { c with users := c.users - 1 } else c
    { h with caches := left.filter fun c => c.users != 0 }

/-- The longest path of a file with a database. -/
def longestDatabasePath : Nat := 512

/-- Whether a path can be on the way to a file: its last step has a name that is not too long,
and does not lead out of a file. -/
def isPassable (h : Host) (path : Path) : Bool :=
  path.lastStep.length ≤ Path.longestName && (h.file? path.parent).isNone &&
    path.toBytes.length ≤ longestDatabasePath

/-- Makes the place of a locator ready; a missing file is made if that is allowed. -/
def attachPlace? (h : Host) (l : Locator) : Option Host :=
  match l.place with
  | .own => some h
  | .shared name => some (h.share name)
  | .file path =>
    if !l.route.all h.isPassable || h.isDirectory path then none
    else if (h.file? path).isSome then some h
    else if l.mayCreate && h.isDirectory path.parent then some (h.writeFile path (.bytes []))
    else none

/-- Opens a locator, and answers with what may be done then. -/
def attach? (h : Host) (l : Locator) : Option (Host × Locator) :=
  (h.attachPlace? l).map fun opened =>
    match h.cache? l with
    | some c => (opened.joinCache l, { l with mayWrite := c.mayWrite })
    | none => (opened.joinCache l, l)

/-- Closes what was opened. -/
def detach (h : Host) (l : Locator) : Host :=
  let h := h.leaveCache l
  match l.place with
  | .shared name => h.unshare name
  | _ => h

end Host

end GraphBase
