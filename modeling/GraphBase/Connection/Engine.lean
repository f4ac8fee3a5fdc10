import GraphBase.Connection.Host

/-!
# Engines

An engine keeps one connection to a target and runs sessions on it, one at a time.  A
session that succeeds is committed; one that fails leaves no trace.  If a session breaks off
without an end, the engine is *poisoned*: it runs no session any more.

## Recycling

An engine may be told to replace its connection when it is older than a number of seconds.
Only zero, which means before every session, can be observed without waiting, and only a
target that may be recycled is reopened.  Each opening counts as a new *generation*.  If
reopening fails, the session is not run and the old connection stays.

The content of a database in memory that is not shared lives with the connection, so a
connection that is replaced takes it along.
-/

namespace GraphBase

/-- One connection to a target. -/
structure Engine where
  target : Target
  locator : Locator
  /-- The age in seconds at which the connection is replaced, if it ever is. -/
  recycle : Option Nat := none
  /-- How many connections have been opened so far. -/
  generation : Nat := 1
  isPoisoned : Bool := false
  /-- The content of a database that lives with the connection. -/
  own : Database := {}
  deriving DecidableEq, Inhabited

/-- An engine and the host that it runs on. -/
structure Site where
  host : Host
  engine : Engine
  deriving Inhabited

/-- An operation on an engine: it may fail, and whatever it did before it failed stays. -/
abbrev Access := ExceptT Error (StateM Site)

namespace Engine

/-! ## Opening -/

/-- The database under a locator; what lives with a connection is handed over. -/
def content (h : Host) (l : Locator) (own : Database) : Except StorageFault Database :=
  match l.place with
  | .own => .ok own
  | .shared name => .ok (((h.shared? name).map (·.content)).getD {})
  | .file path =>
    match h.file? path with
    | some c => c.asDatabase
    | none => .error .cannotOpen

/-- Opens a target, the file included, without a look at the content. -/
def attach (h : Host) (target : Target) : Except Error (Host × Locator) :=
  match Locator.ofTarget target with
  | .error f => .error (target.classify f.code?)
  | .ok l =>
    match h.attach? l with
    | none => .error (target.classify StorageFault.cannotOpen.code?)
    | some r => .ok r

/-- Opens a connection string and looks whether there is a database. -/
def connect (h : Host) (connection : String) (recycle : Option Nat) :
    Except Error Engine × Host :=
  match Target.parse connection with
  | .error e => (.error e, h)
  | .ok target =>
    match attach h target with
    | .error e => (.error e, h)
    | .ok (h', locator) =>
      match content h' locator {} with
      | .error f => (.error (target.classify f.code?), h'.detach locator)
      | .ok _ => (.ok { target, locator, recycle }, h')

/-- Closes the connection. -/
def close (h : Host) (e : Engine) : Host := h.detach e.locator

/-! ## Sessions -/

/-- Whether the connection is replaced before the next session.  No time passes within a run, so a
connection with another age than zero to reach never gets there. -/
def isStale (e : Engine) : Bool := e.recycle == some 0 && e.target.isRecyclable

/-- Replaces the connection if it is due: the new one is opened before the old one is
closed. -/
def reopen : Access Unit := do
  let site ← get
  if site.engine.isStale then
    let (host, locator) ← liftExcept (attach site.host site.engine.target)
    let engine := { site.engine with
      locator
      generation := site.engine.generation + 1
      own := {} }
    set ({ host := host.detach site.engine.locator, engine } : Site)
where
  /-- The value, or the failure. -/
  liftExcept {α : Type} : Except Error α → Access α
    | .ok a => return a
    | .error e => throw e

/-- Makes the connection ready for a session. -/
def prepare : Access Unit := do
  if (← get).engine.isPoisoned then throw .sessionPoisoned
  reopen

/-- The database of a site. -/
def database (s : Site) : Except StorageFault Database :=
  content s.host s.engine.locator s.engine.own

/-- The site with another database. -/
def commit (s : Site) (db : Database) : Site :=
  match s.engine.locator.place with
  | .own => { s with engine := { s.engine with own := db } }
  | .shared name =>
    let shared := s.host.shared.map fun x => if x.name = name then { x with content := db } else x
    { s with host := { s.host with shared } }
  | .file path => { s with host := s.host.writeFile path (.database db) }

/-- What a session leads to: its result and the site after it, or a failure. -/
def outcome {α : Type} (body : Session Database α) (s : Site) : Except Error (α × Site) :=
  match database s with
  | .error f => .error (.storage f)
  | .ok db =>
    let refusal := s.engine.locator.refusal
    match body refusal db with
    | .error e => .error e
    | .ok (a, db') => if refusal.isNone then .ok (a, commit s db') else .ok (a, s)

/-- Runs a session. -/
def session {α : Type} (body : Session Database α) : Access α := do
  prepare
  match outcome body (← get) with
  | .ok (a, s) =>
    set s
    return a
  | .error e => throw e

/-- Begins a session that breaks off without an end. -/
def breakOff : Access Unit := do
  prepare
  modify fun s => { s with engine := { s.engine with isPoisoned := true } }

/-- Opens a connection string and runs a first session; if that fails, the connection is
closed again. -/
def start (h : Host) (connection : String) (recycle : Option Nat)
    (setup : Session Database Unit) : Except Error Engine × Host :=
  match connect h connection recycle with
  | (.error e, h') => (.error e, h')
  | (.ok engine, h') =>
    match (session setup).run ⟨h', engine⟩ with
    | (.ok (), s) => (.ok s.engine, s.host)
    | (.error e, s) => (.error e, close s.host s.engine)

end Engine

end GraphBase
