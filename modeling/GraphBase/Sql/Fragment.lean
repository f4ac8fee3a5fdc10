/-!
# Fragments of statements

Statements are put together from a few fragments: marks for bound values, column
lists, and the operand of a row limit.  Column and table names come from the schema,
values are always bound, so none of the fragments quotes anything.
-/

namespace GraphBase.Sql

/-- `?, ?, ?` with `n` marks. -/
def placeholders (n : Nat) : String := ", ".intercalate (List.replicate n "?")

/-- The columns of a node row, in the order of a query result. -/
def nodeColumnNames : List String :=
  ["id", "name", "text", "label", "properties", "embedding", "created_at", "updated_at"]

/-- The columns of a node row, each behind the name of its table. -/
def nodeColumns (table : String) : String :=
  ", ".intercalate (nodeColumnNames.map fun c => table ++ "." ++ c)

/-- The largest row limit a statement can carry. -/
def limitMax : Nat := 0x7FFFFFFFFFFFFFFF

/-- The operand of a row limit; a larger limit than the largest operand means no limit. -/
def limitOperand (n : Nat) : Nat := min n limitMax

end GraphBase.Sql
