import GraphBase.Sql.Fragment
import GraphBase.Sql.Schema

/-!
# The statements of a traversal

Both stores expand the neighbourhood of their seeds with one recursive statement: the
base case selects the relations that leave a seed, the recursive step goes on from
their ends while the depth allows, and the result is ordered by depth and cut.  The
bound values are the seeds, then the depth, then the limit.
-/

namespace GraphBase.Sql

/-- The traversal of the triplet store.  A row holds the depth, the name of the subject,
the description and the name of the object. -/
def tripletDepthQuery (s : TripletSchema) (seeds : Nat) : String :=
  let e := s.entities
  let r := s.relationships
  "\nWITH RECURSIVE path(depth, subject_id, object_id, description) AS (\n" ++
  "    SELECT 1, r.subject_id, r.object_id, r.description\n" ++
  "    FROM " ++ r ++ " r\n" ++
  "    WHERE r.subject_id IN (SELECT id FROM " ++ e ++ " WHERE name IN (" ++
    placeholders seeds ++ "))\n" ++
  "    UNION ALL\n" ++
  "    SELECT p.depth + 1, r.subject_id, r.object_id, r.description\n" ++
  "    FROM path p\n" ++
  "    JOIN " ++ r ++ " r ON p.object_id = r.subject_id\n" ++
  "    WHERE p.depth < ?\n" ++
  ")\n" ++
  "SELECT p.depth, e1.name, p.description, e2.name\n" ++
  "FROM path p\n" ++
  "JOIN " ++ e ++ " e1 ON p.subject_id = e1.id\n" ++
  "JOIN " ++ e ++ " e2 ON p.object_id = e2.id\n" ++
  "ORDER BY p.depth\n" ++
  "LIMIT ?\n"

/-- The traversal of the property graph store.  A row holds the depth, the label and the
properties of the relation, and the columns of its two nodes. -/
def propertyDepthQuery (seeds : Nat) : String :=
  let n := nodeTable
  let r := relationTable
  "\nWITH RECURSIVE path(depth, source_id, target_id, label, properties) AS (\n" ++
  "    SELECT 1, r.source_id, r.target_id, r.label, r.properties\n" ++
  "    FROM " ++ r ++ " r\n" ++
  "    WHERE r.source_id IN (" ++ placeholders seeds ++ ")\n" ++
  "    UNION ALL\n" ++
  "    SELECT p.depth + 1, r.source_id, r.target_id, r.label, r.properties\n" ++
  "    FROM path p\n" ++
  "    JOIN " ++ r ++ " r ON p.target_id = r.source_id\n" ++
  "    WHERE p.depth < ?\n" ++
  ")\n" ++
  "SELECT p.depth, p.label, p.properties, " ++ nodeColumns "e1" ++ ", " ++
    nodeColumns "e2" ++ "\n" ++
  "FROM path p\n" ++
  "JOIN " ++ n ++ " e1 ON p.source_id = e1.id\n" ++
  "JOIN " ++ n ++ " e2 ON p.target_id = e2.id\n" ++
  "ORDER BY p.depth\n" ++
  "LIMIT ?\n"

end GraphBase.Sql
