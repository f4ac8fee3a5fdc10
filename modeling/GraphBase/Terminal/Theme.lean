import GraphBase.Graph.Node

/-!
# Roles and their styles

A line for people is put together from parts, and each part has a role.  A theme with colors
surrounds a part with the codes of its role and the code that ends all styles; a theme
without colors leaves it alone.  Empty parts are painted like all others.
-/

namespace GraphBase

/-- What a part of a line is. -/
inductive Role where
  | title
  | ok
  | failure
  | caution
  | label
  | faint
  | null
  | node
  | relation
  deriving DecidableEq, Repr

/-- The codes of a role: a color, an effect, or both. -/
def Role.codes : Role → String
  | title => "36;1"
  | ok => "32;1"
  | failure => "31;1"
  | caution => "33;1"
  | label => "35"
  | faint => "37;2"
  | null => "90;3"
  | node => "1"
  | relation => "34"

/-- How parts are painted. -/
structure Theme where
  hasColors : Bool := false
  deriving DecidableEq, Inhabited

namespace Theme

/-- A part in the style of its role. -/
def paint (t : Theme) (role : Role) (text : String) : String :=
  if t.hasColors then "\x1b[" ++ role.codes ++ "m" ++ text ++ "\x1b[0m" else text

/-! ## Parts -/

/-- A part that stands back. -/
def dim (t : Theme) (text : String) : String := t.paint .faint text

/-- A part that stands for nothing. -/
def muted (t : Theme) (text : String) : String := t.paint .null text

/-- A fact in one line. -/
def arrow (t : Theme) (subject relation object : String) : String :=
  GraphBase.arrow (t.paint .node subject) (t.paint .relation relation) (t.paint .node object)

/-! ## Lines -/

/-- A line of success. -/
def success (t : Theme) (text : String) : String := "✅ " ++ t.paint .ok text

/-- A line of failure. -/
def failure (t : Theme) (text : String) : String := "❌ " ++ t.paint .failure text

/-- A line of warning. -/
def warning (t : Theme) (text : String) : String := "⚠️ " ++ t.paint .caution text

/-- A label and a value. -/
def info (t : Theme) (label value : String) : String :=
  t.paint .label "ℹ️" ++ " " ++ t.paint .faint label ++ ": " ++ value

/-- A line of nothing found. -/
def nothing (text : String) : String := "∅ " ++ text

/-- A line of one relation. -/
def link (t : Theme) (subject relation object : String) : String :=
  "🔗 " ++ t.arrow subject relation object

/-- The line above results. -/
def results (t : Theme) (text : String) : String := "🔎 " ++ t.paint .title text

/-- The line above counts. -/
def counts (t : Theme) (text : String) : String := "📊 " ++ t.paint .title text

/-- The line above a section. -/
def sectionTitle (t : Theme) (text : String) : String := "━" ++ t.paint .title text ++ "━"

@[simp] theorem paint_plain (role : Role) (text : String) : paint {} role text = text := rfl

end Theme

end GraphBase
