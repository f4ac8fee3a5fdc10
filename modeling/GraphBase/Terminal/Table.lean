import GraphBase.Graph.Node
import GraphBase.Storage.Table
import GraphBase.Text.Find
import GraphBase.Text.Width
import GraphBase.Traversal.RelMap
import GraphBase.Triplets.Store

/-!
# Tables of text

A table has a header and rows of cells.  A cell may have several lines.  Every column is as
wide as its widest line, measured in terminal columns, and every row is as tall as its
tallest cell; lines are filled up with blanks, and a blank is put on either side of each.
Lines are drawn around the table, with round corners, and below the header.

A table without rows ends with the line below the header.
-/

namespace GraphBase

namespace TextTable

/-- The lines of a cell. -/
def cellLines (cell : String) : List String :=
  (Text.splitAll '\n' cell.toList).map String.ofList

/-- The width of a cell. -/
def cellWidth (cell : String) : Nat := ((cellLines cell).map Text.width).foldl max 0

/-- The widths of all columns. -/
def columnWidths (rows : List (List String)) : List Nat :=
  rows.foldl (fun widths row => widths.zipWith max (row.map cellWidth))
    ((rows.headD []).map fun _ => 0)

/-- A text filled up to a width. -/
def fill (width : Nat) (s : String) : String :=
  s ++ String.ofList (List.replicate (width - Text.width s) ' ')

/-- One line of a row. -/
def lineOf (widths : List Nat) (cells : List String) : String :=
  "│" ++ String.join ((widths.zip cells).map fun (w, s) => " " ++ fill w s ++ " │")

/-- The lines of a row. -/
def rowLines (widths : List Nat) (row : List String) : List String :=
  let cells := row.map cellLines
  let height := (cells.map List.length).foldl max 1
  (List.range height).map fun i => lineOf widths (cells.map fun lines => lines.getD i "")

/-- A drawn line. -/
def rule (left middle right : String) (widths : List Nat) : String :=
  let parts := widths.map fun w => String.ofList (List.replicate (w + 2) '─')
  left ++ middle.intercalate parts ++ right

/-- A table with its header and rows. -/
def render (header : List String) (rows : List (List String)) : String :=
  let widths := columnWidths (header :: rows)
  let above := rule "╭" "┬" "╮" widths :: rowLines widths header ++ [rule "├" "┼" "┤" widths]
  let below :=
    if rows.isEmpty then [] else rows.flatMap (rowLines widths) ++ [rule "╰" "┴" "╯" widths]
  "\n".intercalate (above ++ below)

/-! ## What is shown in tables -/

/-- Labels and values; no table if there are none. -/
def metrics (rows : List (String × String)) : String :=
  if rows.isEmpty then "" else render ["Metric", "Value"] (rows.map fun (l, v) => [l, v])

/-- The counts of a store. -/
def stats (s : Stats) : String :=
  metrics [("Nodes", toString s.nodes), ("Relations", toString s.relations),
    ("Embeddings", toString s.embeddings)]

/-- Triplets with the properties of their relations. -/
def triplets (xs : List Triplet) : String :=
  render ["Source", "Relation", "Target", "Properties"] <| xs.map fun x =>
    [x.source.displayName, x.relation.label, x.target.displayName,
      x.relation.properties.display]

/-- What a table shows of an embedding: its distance if it has one, else its dimension. -/
def embeddingCell (distance : Option Number.Binary32) (embedding : Option Embedding) : String :=
  match distance, embedding with
  | some d, _ => "distance " ++ d.fixed 4
  | none, some v => toString v.length ++ " dims"
  | none, none => "-"

/-- Nodes, the first of them with distances. -/
def nodes (xs : List Node) (distances : List Number.Binary32) : String :=
  render ["Id", "Kind", "Label", "Properties", "Embedding"] <| xs.zipIdx.map fun (n, i) =>
    [n.id, n.kind.name, n.label, n.properties.display,
      embeddingCell (distances[i]?) n.embedding]

/-- Facts under their seeds, the seeds in order. -/
def relMap (m : RelMap String Fact) : String :=
  let seeds := m.mergeSort fun a b => a.1 ≤ b.1
  render ["Seed", "Subject", "Relation", "Object"] <| seeds.flatMap fun (seed, facts) =>
    facts.map fun f => [seed, f.subject, f.relation, f.object]

end TextTable

end GraphBase
