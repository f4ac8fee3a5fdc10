import GraphBase.Config.File
import GraphBase.Graph.Codec
import GraphBase.Terminal.Table
import GraphBase.Terminal.Theme

/-!
# What a command leaves behind

A run of the program prints lines, warns, and succeeds or fails.  A `Report` keeps all of
it: the output, the warnings, the cause of a failure, and the code with which the program
ends, which is 0 for success, 1 for a failure and 2 for a command line without sense.

Results that are printed as JSON are put together here as well.  The neighbours of a node
are printed with the members of every object in order of their names, and with all numbers
in double precision; everything else keeps its own form.
-/

namespace GraphBase.CommandLine

open GraphBase.Number

/-- Why a command failed. -/
inductive Failure where
  | store (cause : Error)
  | settings (cause : SettingsFault)
  /-- A property was not given as key and value. -/
  | notAPair (argument : String)
  /-- A node without an embedding has no neighbours. -/
  | noEmbedding (id : String)
  deriving DecidableEq, Repr

/-- The wording of a cause. -/
def Failure.message : Failure → String
  | store cause => cause.message
  | settings cause => cause.message
  | notAPair argument => "Expected key=value, got " ++ Text.quoted argument
  | noEmbedding id => "Node " ++ Text.quoted id ++ " not found or has no embedding"

/-- What a run of the program leaves behind. -/
structure Report where
  output : String := ""
  warnings : List String := []
  failure : Option Failure := none
  code : Nat := 0
  deriving DecidableEq, Inhabited

/-! ## Results as JSON -/

/-- A number in double precision. -/
def widened (x : Binary32) : Json := (Scalar.float x.toBinary64).toJson

/-- Members in order of their names. -/
def sortMembers (members : List (String × Json)) : List (String × Json) :=
  members.mergeSort fun a b => a.1 ≤ b.1

/-- A node with its components in double precision and its members in order. -/
def nodeJson (n : Node) : Json :=
  let embedding := match n.embedding with
    | some v => [("embedding", Json.array (v.map widened))]
    | none => []
  match n.toJson with
  | .object members =>
    .object (sortMembers (members.filter (fun m => m.1 != "embedding") ++ embedding))
  | j => j

/-- A neighbour and its distance. -/
def hitJson (hit : Node × Binary32) : Json :=
  .object [("distance", widened hit.2), ("node", nodeJson hit.1)]

/-- Facts under their seeds, the seeds in order. -/
def relMapJson (m : RelMap String Fact) : Json :=
  .object (sortMembers (m.map fun (seed, facts) =>
    (seed, .array (facts.map fun f => .array ([f.subject, f.relation, f.object].map .string)))))

/-! ## Rows as text -/

/-- A cell in a row of results. -/
def showCell (theme : Theme) : Cell → String
  | .null => theme.muted "NULL"
  | .integer i => integerText i.toInt
  | .real x => x.display
  | .text s => s
  | .blob bytes => theme.muted ("<" ++ toString bytes.length ++ " bytes>")

/-- A row of results in one line. -/
def showRow (theme : Theme) (row : List Cell) : String :=
  " | ".intercalate (row.map (showCell theme))

end GraphBase.CommandLine
