import GraphBase.Graph.Tables
import GraphBase.Json.Path
import GraphBase.Sql.Condition

/-!
# Selections

A selection names parts of a property graph: entities by name, nodes by identity,
relations by label, and whatever carries certain properties.  Each of the four lists may be
empty, and then it selects nothing of its own; a selection of four empty lists is empty.

## Properties

A filter on properties is decided on the stored text.  A property matches if the text has a
value for its key that equals the given one, as cells are equal: truth values are integers,
integers and floating point numbers are equal when they are the same number, and nothing
equals null.  A text that is not JSON makes the decision fail.  Several properties are
decided one after the other, in the order of their keys, up to the first that does not
match.

## Conditions

A selection becomes the condition of a statement, with one condition for each property and
one for each other list that is not empty.  A statement with too many of them cannot be made
(`Sql.prepare`), so asking for very many properties fails, whatever is stored.
-/

namespace GraphBase

/-- Which parts of a graph are meant. -/
structure Selection where
  entityNames : List String := []
  relationNames : List String := []
  properties : Properties := .empty
  ids : List String := []
  deriving DecidableEq, Inhabited

/-- Whether nothing is selected. -/
def Selection.isEmpty (s : Selection) : Bool :=
  s.entityNames.isEmpty && s.relationNames.isEmpty && s.properties.isEmpty && s.ids.isEmpty

/-! ## Conditions -/

/-- A condition on values, if there are any. -/
def conditionOn (values : List String) (c : Sql.Shape) : List Sql.Shape :=
  if values.isEmpty then [] else [c]

theorem length_conditionOn (values : List String) (c : Sql.Shape) :
    (conditionOn values c).length = if values.isEmpty then 0 else 1 := by
  rw [conditionOn]
  split <;> rfl

theorem eq_of_mem_conditionOn {values : List String} {c x : Sql.Shape}
    (h : x ∈ conditionOn values c) : x = c := by
  rw [conditionOn] at h
  split at h
  · cases h
  · exact List.mem_singleton.1 h

/-- The conditions of a statement that asks for properties and for identities of its rows. -/
def nodeConditions (properties : Properties) (ids : List String) : List Sql.Shape :=
  List.replicate properties.entries.length (.hasProperty .leaf) ++ conditionOn ids (.isIn .leaf)

/-- How many conditions a request for nodes makes. -/
def nodeSize (properties : Properties) (ids : List String) : Nat :=
  properties.entries.length + if ids.isEmpty then 0 else 1

/-- **How many conditions a request for nodes can have.**  A condition on a property has the depth
three, and every further condition adds one. -/
theorem prepare_nodeConditions_eq_ok {properties : Properties} {ids : List String} :
    Sql.prepare (nodeConditions properties ids) = .ok () ↔ nodeSize properties ids ≤ 998 := by
  rw [nodeConditions, nodeSize]
  cases properties.entries.length with
  | zero => cases ids <;> exact iff_of_true rfl (by simp)
  | succ n =>
    rw [List.replicate_succ, List.cons_append, Sql.prepare_cons_eq_ok fun x hx => ?_]
    · rw [List.length_append, List.length_replicate, length_conditionOn]
      show 3 + _ ≤ 1000 ↔ _
      omega
    · obtain hx | hx := List.mem_append.1 hx
      · exact Nat.le_of_eq (congrArg Sql.Shape.depth (List.eq_of_mem_replicate hx))
      · rw [eq_of_mem_conditionOn hx]
        decide

/-- That a relation or one of its ends has a property. -/
def someHasProperty : Sql.Shape :=
  .join (.join (.hasProperty .column) (.hasProperty .column)) (.hasProperty .column)

/-- That one of the ends of a relation has one of some values. -/
def endIsIn : Sql.Shape := .join (.isIn .column) (.isIn .column)

/-- The conditions that follow the properties in a statement that asks for triplets.  The last two
join a relation with its ends. -/
def Selection.lastConditions (s : Selection) : List Sql.Shape :=
  conditionOn s.entityNames endIsIn ++ conditionOn s.relationNames (.isIn .column) ++
    [.join .column .column, .join .column .column]

/-- The conditions of a statement that asks for triplets. -/
def Selection.conditions (s : Selection) : List Sql.Shape :=
  conditionOn s.ids endIsIn ++ List.replicate s.properties.entries.length someHasProperty ++
    s.lastConditions

/-- How many conditions the parts of a selection make. -/
def Selection.size (s : Selection) : Nat :=
  s.properties.entries.length + (if s.ids.isEmpty then 0 else 1) +
    (if s.entityNames.isEmpty then 0 else 1) + if s.relationNames.isEmpty then 0 else 1

/-- **How many conditions a request for triplets can have.**  A condition on a property has the
depth six here, and the joins take two. -/
theorem Selection.prepare_conditions_eq_ok {s : Selection} :
    Sql.prepare s.conditions = .ok () ↔ s.size ≤ 993 := by
  have hlength : s.lastConditions.length = (if s.entityNames.isEmpty then 0 else 1) +
      (if s.relationNames.isEmpty then 0 else 1) + 2 := by
    rw [lastConditions, List.length_append, List.length_append, length_conditionOn,
      length_conditionOn]
    rfl
  have hlast : ∀ x ∈ s.lastConditions, x.depth ≤ 6 := by
    intro x hx
    rw [lastConditions, List.mem_append, List.mem_append] at hx
    obtain (hx | hx) | hx := hx
    · rw [eq_of_mem_conditionOn hx]
      decide
    · rw [eq_of_mem_conditionOn hx]
      decide
    · simp only [List.mem_cons, List.not_mem_nil, or_false, or_self] at hx
      rw [hx]
      decide
  rw [conditions, size]
  cases s.properties.entries.length with
  | zero =>
    rw [lastConditions]
    cases s.ids <;> cases s.entityNames <;> cases s.relationNames <;>
      exact iff_of_true rfl (by simp)
  | succ n =>
    have hrest : ∀ x ∈ List.replicate n someHasProperty ++ s.lastConditions, x.depth ≤ 6 := by
      intro x hx
      obtain hx | hx := List.mem_append.1 hx
      · rw [List.eq_of_mem_replicate hx]
        decide
      · exact hlast x hx
    rw [List.append_assoc, List.replicate_succ, List.cons_append]
    cases s.ids with
    | nil =>
      rw [conditionOn, List.isEmpty_nil, if_pos rfl, if_pos rfl, List.nil_append,
        Sql.prepare_cons_eq_ok hrest, List.length_append, List.length_replicate, hlength]
      show 6 + _ ≤ 1000 ↔ _
      omega
    | cons id ids =>
      -- a condition on identities stands before the properties, and is not as deep as one of those
      have hjoined : ∀ x ∈ List.replicate n someHasProperty ++ s.lastConditions,
          x.depth ≤ (endIsIn.join someHasProperty).depth :=
        fun x hx => Nat.le_succ_of_le (hrest x hx)
      rw [conditionOn, List.isEmpty_cons, if_neg Bool.false_ne_true, if_neg Bool.false_ne_true,
        List.singleton_append, Sql.prepare_cons_cons, Sql.prepare_cons_eq_ok hjoined,
        List.length_append, List.length_replicate, hlength]
      show 7 + _ ≤ 1000 ↔ _
      omega

/-! ## Deciding -/

/-- Whether a stored text has that value for that key. -/
def matchesProperty (text key : String) (value : Scalar) : Except StorageFault Bool :=
  (Json.extract text (Json.keyPath key)).map fun c => c.equals value.toCell.bound

/-- Whether a stored text has all the values. -/
def matchesAll (text : String) : List (String × Scalar) → Except StorageFault Bool
  | [] => .ok true
  | (key, value) :: rest =>
    match matchesProperty text key value with
    | .ok true => matchesAll text rest
    | r => r

/-- Whether one of several stored texts has that value for that key. -/
def anyMatches (key : String) (value : Scalar) : List String → Except StorageFault Bool
  | [] => .ok false
  | text :: rest =>
    match matchesProperty text key value with
    | .ok false => anyMatches key value rest
    | r => r

/-- Whether, for every property, one of several stored texts has its value. -/
def anyMatchesEach (texts : List String) : List (String × Scalar) → Except StorageFault Bool
  | [] => .ok true
  | (key, value) :: rest =>
    match anyMatches key value texts with
    | .ok true => anyMatchesEach texts rest
    | r => r

/-- The items that satisfy a condition; the first failure is the answer. -/
def filterOk {ε α : Type} (p : α → Except ε Bool) : List α → Except ε (List α)
  | [] => .ok []
  | a :: rest => do
    let keep ← p a
    let kept ← filterOk p rest
    return if keep then a :: kept else kept

/-- The items that satisfy a condition, each read at once; the first failure of either kind
is the answer. -/
def filterMapOk {ε α β : Type} (p : α → Except ε Bool) (f : α → Except ε β) :
    List α → Except ε (List β)
  | [] => .ok []
  | a :: rest => do
    if ← p a then
      let b ← f a
      let read ← filterMapOk p f rest
      return b :: read
    else filterMapOk p f rest

end GraphBase
