import GraphBase.Text.Find

/-!
# Paths

A path is a list of steps, and a step is a name in a directory, as bytes.  The steps of an
absolute path begin with an empty one.  A path has no other empty steps, and `..` stands at the
beginning of a relative path only: everywhere else it has been resolved by dropping the step
before it, whether or not there is such a directory.

A text is a sequence of steps with slashes between them, of which any number may follow each
other.  Its `route` lists the paths that its steps lead to, one after the other.
-/

namespace GraphBase

/-- A name in a directory, as bytes. -/
abbrev FileName := List UInt8

/-- A path as its steps. -/
abbrev Path := List FileName

/-- The bytes of a text. -/
def Text.utf8 (s : String) : List UInt8 := s.toUTF8.toList

/-- The text that bytes stand for; what does not fit is lost. -/
def Text.ofUtf8 (bytes : List UInt8) : String := (String.fromUTF8? ⟨bytes.toArray⟩).getD "\ufffd"

namespace Path

/-- The byte between two steps. -/
def slash : UInt8 := 0x2F

/-- The step that stays where it is. -/
def here : FileName := [0x2E]

/-- The step to the directory above. -/
def above : FileName := [0x2E, 0x2E]

/-- The path of the root. -/
def root : Path := [[]]

/-- The most bytes of a step. -/
def longestName : Nat := 255

/-- Adds a step to a path that is given backwards. -/
def addStep (path : Path) (step : FileName) : Path :=
  if step = [] ∨ step = here then path
  else if step = above then
    match path with
    | [] => [above]
    | last :: rest =>
      if last = above then above :: path
      else if last = [] then path
      else rest
  else step :: path

/-- The path that one more step leads to. -/
def join (path : Path) (step : FileName) : Path := (addStep path.reverse step).reverse

/-- Where the steps of some bytes begin. -/
def start (bytes : List UInt8) : Path := if bytes.head? = some slash then root else []

/-- The steps of some bytes. -/
def steps (bytes : List UInt8) : List FileName := Text.splitAll slash bytes

/-- The path of some bytes. -/
def ofBytes (bytes : List UInt8) : Path := (steps bytes).foldl join (start bytes)

/-- The path of a text. -/
def ofString (s : String) : Path := ofBytes (Text.utf8 s)

/-- The paths that some steps lead to, one after the other. -/
def routeFrom (path : Path) : List FileName → List Path
  | [] => []
  | step :: rest => path.join step :: routeFrom (path.join step) rest

/-- The paths that the steps of some bytes lead to, one after the other. -/
def route (bytes : List UInt8) : List Path := routeFrom (start bytes) (steps bytes)

/-- The directory that a path is in. -/
def parent (p : Path) : Path := p.dropLast

/-- The last step of a path. -/
def lastStep (p : Path) : FileName := p.getLastD []

/-- A path as the bytes of a file name. -/
def toBytes (p : Path) : List UInt8 := if p = root then [slash] else [slash].intercalate p

end Path

end GraphBase
