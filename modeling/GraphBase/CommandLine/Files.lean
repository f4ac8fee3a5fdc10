import GraphBase.CommandLine.Run

/-!
# The files of a request

A request reads and writes at most two files: the one with its settings and the one with its
database.  Which file the database is in can only be said once the settings have been read.
Before a file is looked up, everything on the way to it has to be known.
-/

namespace GraphBase.CommandLine

/-- A path as a file name. -/
def fileName (path : Path) : String := Text.ofUtf8 path.toBytes

namespace Request

/-- The paths on the way to the file with the settings. -/
def settingsRoute (r : Request) : List Path :=
  Path.route (Text.utf8 (r.settings.getD StoreConfig.defaultFile))

/-- The connection string, given a host with the file of the settings. -/
def connection? (r : Request) (h : Host) : Option String :=
  match ((Job.settings r).run { host := h }).1 with
  | .ok config => some config.database
  | .error _ => none

/-- The paths on the way to the file with the database, given a host with the file of the
settings. -/
def databaseRoute (r : Request) (h : Host) : List Path :=
  match (r.connection? h).map Target.parse with
  | some (.ok target) =>
    match Locator.ofTarget target with
    | .ok { place := .file path, route, .. } => route ++ [path.parent, path]
    | _ => []
  | _ => []

end Request

/-- The files that hold something else on one host than on another. -/
def changedFiles (before after : Host) : List (Path × FileContent) :=
  after.files.filter fun f => before.file? f.1 != some f.2

end GraphBase.CommandLine
