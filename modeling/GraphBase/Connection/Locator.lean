import GraphBase.Connection.Path
import GraphBase.Connection.Target
import GraphBase.Text.Hex

/-!
# How a target is opened

Opening a target first settles where the content of the database is and what may be done
with it.  The content is in one of three places: with the connection itself, and gone when
it is closed; under a name in memory, where all connections of that name find it while one
of them is open; or in a file.

## File names that are URIs

A name that begins with `file:` is taken apart as a URI, whoever wrote it.  Its authority
has to be empty or `localhost`, what follows a `#` is ignored, and the options behind `?`
are `name=value` joined by `&`.  Two hexadecimal digits behind a percent sign stand for one
byte, and the byte zero ends its part.  Four options matter:

* `mode` is `ro`, `rw`, `rwc` or `memory`.  Of several modes each may allow as much as the
  one before it, but not more; only after `memory` anything goes.
* `cache` is `shared` or `private`; the last one counts.
* `vfs` names a file system; the last one counts.
* `immutable` says whether a file is only read.  Its first value counts, and a value that
  makes no sense means no.

An empty path and the path `:memory:` are in memory, as is every path in mode `memory`.
Mode `ro` holds for these places too: what is in memory cannot be written then.  One of the
file systems is in memory itself: there a path that begins with a slash and goes on is a name
for all connections, and any other path is with its connection.

## Shared caches

Connections that share their cache also share what may be done: the first of them settles
whether the database may be written (`Host.attach?`).
-/

namespace GraphBase

/-- The name of a database in memory. -/
inductive MemoryName where
  /-- A cache that connections share, on one of the file systems. -/
  | cache (fileSystem : String) (name : FileName)
  /-- A file of the file system in memory. -/
  | file (name : FileName)
  deriving DecidableEq, Inhabited

/-- Where the content of a database is. -/
inductive Place where
  | own
  | shared (name : MemoryName)
  | file (path : Path)
  deriving DecidableEq, Inhabited

/-- How a target is opened. -/
structure Locator where
  place : Place
  fileSystem : String := "unix"
  mayCreate : Bool := true
  mayWrite : Bool := true
  /-- Whether the cache is shared with other connections to the same place. -/
  isShared : Bool := false
  /-- The paths on the way to a file. -/
  route : List Path := []
  deriving DecidableEq, Inhabited

namespace Locator

open GraphBase.Text (hexValue?)

/-! ## URIs -/

/-- Decodes a part of a URI, up to an encoded zero. -/
def decodePart : List Char → List UInt8
  | [] => []
  | '%' :: a :: b :: rest =>
    match hexValue? a, hexValue? b with
    | some x, some y =>
      if x * 16 + y = 0 then [] else (x * 16 + y).toUInt8 :: decodePart rest
    | _, _ => 0x25 :: decodePart (a :: b :: rest)
  | c :: rest => String.utf8EncodeChar c ++ decodePart rest

/-- The path and the options of a URI, without the part that begins with `#`. -/
def splitQuery (cs : List Char) : List Char × List Char :=
  let cs := cs.takeWhile (· ≠ '#')
  (cs.takeWhile (· ≠ '?'), (cs.dropWhile (· ≠ '?')).drop 1)

/-- One option as name and value; an option without a name is none. -/
def readOption? (cs : List Char) : Option (String × String) :=
  let name := Text.ofUtf8 (decodePart (cs.takeWhile (· ≠ '=')))
  let value := Text.ofUtf8 (decodePart ((cs.dropWhile (· ≠ '=')).drop 1))
  if name.isEmpty then none else some (name, value)

/-- What a connection asks to do. -/
inductive Mode where
  | read
  | write
  | create
  | memory
  deriving DecidableEq, Repr

namespace Mode

def ofName? : String → Option Mode
  | "ro" => some read
  | "rw" => some write
  | "rwc" => some create
  | "memory" => some memory
  | _ => none

/-- How much a mode allows. -/
def rank : Mode → Nat
  | read => 1
  | write => 2
  | create => 3
  | memory => 4

/-- Whether a mode may follow another one. -/
def mayFollow (next before : Mode) : Bool := next == memory || next.rank ≤ before.rank

end Mode

/-- What the options of a URI settle. -/
structure Options where
  mode : Mode := .create
  isShared : Bool := false
  fileSystem : String := "unix"

/-- The file system that is in memory. -/
def memorySystem : String := "memdb"

/-- The file systems that a URI may name. -/
def fileSystems : List String :=
  ["unix", "unix-none", "unix-dotfile", "unix-excl", memorySystem]

/-- Settles one option. -/
def Options.settle (o : Options) (option : String × String) : Except StorageFault Options :=
  match option with
  | ("mode", value) =>
    match Mode.ofName? value with
    | none => .error .badStatement
    | some mode =>
      if mode.mayFollow o.mode then .ok { o with mode } else .error .forbidden
  | ("cache", "shared") => .ok { o with isShared := true }
  | ("cache", "private") => .ok { o with isShared := false }
  | ("cache", _) => .error .badStatement
  | ("vfs", fileSystem) => .ok { o with fileSystem }
  | _ => .ok o

/-- The number that an option says: hexadecimal digits behind `0x`, or decimal digits.  A number
that does not fit 32 bits with a sign counts as zero, and so does a decimal number of more than
ten digits. -/
def optionNumber (value : List Char) : Nat :=
  match value with
  | '0' :: x :: d :: rest =>
    if (x = 'x' ∨ x = 'X') ∧ (hexValue? d).isSome then
      let n := ((d :: rest).takeWhile fun c => (hexValue? c).isSome).foldl
        (fun n c => n * 16 + (hexValue? c).getD 0) 0
      if n < 0x80000000 then n else 0
    else decimal value
  | _ => decimal value
where
  decimal (value : List Char) : Nat :=
    let n := (value.takeWhile Char.isDigit).foldl (fun n c => n * 10 + (c.toNat - 48)) 0
    if n < 0x80000000 then n else 0

/-- Whether the value of an option says yes: a word for it, or a number whose last eight bits
are not all zero. -/
def saysYes (value : String) : Bool :=
  if value.toList.head?.any Char.isDigit then optionNumber value.toList % 256 != 0
  else ["on", "yes", "true"].contains (Text.foldCase value)

/-- Whether the options say that a file is only read. -/
def saysImmutable (options : List (String × String)) : Bool :=
  ((options.find? fun o => o.1 == "immutable").map fun o => saysYes o.2).getD false

/-- A path in a URI, after its authority. -/
def dropAuthority (cs : List Char) : Except StorageFault (List Char) :=
  match Text.dropStart? "//".toList cs with
  | none => .ok cs
  | some rest =>
    let authority := String.ofList (rest.takeWhile (· ≠ '/'))
    if authority = "" ∨ authority = "localhost" then .ok (rest.dropWhile (· ≠ '/'))
    else .error .badStatement

/-- How a file is opened. -/
def ofFile (name : List UInt8) : Locator :=
  { place := .file (Path.ofBytes name), route := Path.route name }

/-- The place of a database in memory. -/
def memoryPlace (o : Options) (name : FileName) : Place :=
  if o.isShared then .shared (.cache o.fileSystem name) else .own

/-- The place of a file of the file system in memory. -/
def memoryFile (name : FileName) : Place :=
  if name.head? = some Path.slash ∧ 1 < name.length then .shared (.file name) else .own

/-- How a path is opened under some options. -/
def ofOptions (o : Options) (isImmutable : Bool) (name : FileName) : Locator :=
  let mayWrite := o.mode != .read
  if name = [] then { place := .own, mayWrite }
  else if o.mode = .memory ∨ name = Text.utf8 ":memory:" then
    { place := memoryPlace o name, fileSystem := o.fileSystem, mayWrite, isShared := o.isShared }
  else if o.fileSystem = memorySystem then
    { place := memoryFile name
      fileSystem := o.fileSystem
      mayWrite := mayWrite && !isImmutable
      isShared := o.isShared }
  else
    { ofFile name with
      fileSystem := o.fileSystem
      mayCreate := o.mode == .create
      mayWrite := mayWrite && !isImmutable
      isShared := o.isShared }

/-- How a URI is opened, given what follows `file:`. -/
def ofUri (cs : List Char) : Except StorageFault Locator := do
  let (path, query) := splitQuery (← dropAuthority cs)
  let given := (Text.splitAll '&' query).filterMap readOption?
  let options ← given.foldlM Options.settle {}
  if fileSystems.contains options.fileSystem then
    return ofOptions options (saysImmutable given) (decodePart path)
  else throw .badStatement

/-- How a file name is opened.  A name with the character zero in it is no name. -/
def ofName (name : String) : Except StorageFault Locator :=
  let cs := name.toList
  if cs.contains '\x00' then .error .badStatement
  else
    match Text.dropStart? "file:".toList cs with
    | some rest => ofUri rest
    | none => .ok (ofFile (Text.utf8 name))

/-- How a target is opened. -/
def ofTarget : Target → Except StorageFault Locator
  | .memory => .ok { place := .own }
  | .file path => ofName path
  | .uri text => ofName text

/-! ## Writing -/

/-- What is appended to the name of a file for the file that goes with it. -/
def journalSuffix : FileName := Text.utf8 "-journal"

/-- Why a database may not be written to: because it is only read, or because the name of the
file that goes with it would be too long. -/
def refusal (l : Locator) : Option StorageFault :=
  if !l.mayWrite then some .readOnly
  else
    match l.place with
    | .file path =>
      if Path.longestName < (path.lastStep ++ journalSuffix).length then some .cannotOpen else none
    | _ => none

end Locator

end GraphBase
