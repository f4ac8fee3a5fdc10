import GraphBase.CommandLine.Files
import GraphBase.Connection.Snapshot
import GraphBase.Value.Instant
import Std.Time.DateTime.Timestamp

/-!
# The program

The program reads the files that a request touches into a host, carries the request out on
it, writes the files back that have changed, and prints the report.  A database is kept in
its file as a snapshot.
-/

open GraphBase GraphBase.CommandLine

namespace Program

/-- Adds what is at a path to a host: a directory, a file, or nothing. -/
def readPath (h : Host) (path : Path) : IO Host := do
  try
    let place ← IO.FS.realPath (fileName path)
    if ← place.isDir then return h.makeDirectory path
    let bytes ← IO.FS.readBinFile place
    return h.writeFile path (Snapshot.ofBytes bytes.toList)
  catch _ => return h

/-- The host that a request is carried out on. -/
def readHost (request : Request) : IO Host := do
  let h ← request.settingsRoute.foldlM readPath {}
  (request.databaseRoute h).foldlM readPath h

/-- Writes back the files that have changed. -/
def writeHost (before after : Host) : IO Unit :=
  (changedFiles before after).forM fun (path, content) =>
    IO.FS.writeBinFile (fileName path) ⟨(Snapshot.toBytes content).toArray⟩

/-- The current time in the notation of the tables. -/
def now : IO String := do
  return Instant.plainText (← Std.Time.Timestamp.now).toSecondsSinceUnixEpoch.val

/-- Colors are for terminals, unless the environment asks for none. -/
def theme : IO Theme := do
  let isTerminal ← (← IO.getStdout).isTty
  return { hasColors := isTerminal && (← IO.getEnv "NO_COLOR").isNone }

end Program

/-- Runs the program and ends with the code of its report. -/
def main (args : List String) : IO UInt32 := do
  let theme ← Program.theme
  let before ← match Request.ofArguments args with
    | .ok request => Program.readHost request
    | .error _ => pure {}
  let (report, after) := run (← Program.now) theme before args
  Program.writeHost before after
  IO.print report.output
  report.warnings.forM fun line => IO.eprintln line
  match report.failure with
  | some failure => IO.eprintln (theme.failure failure.message)
  | none => if report.code = 2 then IO.eprintln usage
  return report.code.toUInt32
