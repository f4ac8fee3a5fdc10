import GraphBase.Json.Numeral

/-!
# JSON values

A JSON value keeps its numbers as numerals and the members of its objects in the
order of the text, repeated names included.  Which of several members of one name
counts is the reader's decision: `field?` takes the last one.

## Records

Nodes, relations and settings are records with named fields.  A record may be
written as an object, whose unknown members are ignored, or as an array of its
fields in the order of their declaration, the optional ones at the end missing;
an array longer than the record is refused.  `fields?` reads both forms into one
list of optional members.
-/

namespace GraphBase

/-- A JSON value. -/
inductive Json where
  | null
  | bool (b : Bool)
  | number (n : Json.Numeral)
  | string (s : String)
  | array (items : List Json)
  | object (members : List (String × Json))
  deriving Inhabited, Repr, BEq

namespace Json

/-- The last member of that name. -/
def lookup (name : String) (members : List (String × Json)) : Option Json :=
  (members.reverse.find? fun m => m.1 == name).map (·.2)

/-- A member of an object. -/
def field? (name : String) : Json → Option Json
  | object members => lookup name members
  | _ => none

/-- The fields of a record in the order of `names`, each `none` where it is missing. -/
def fields? (names : List String) : Json → Option (List (Option Json))
  | object members => some (names.map fun n => lookup n members)
  | array items =>
    if items.length ≤ names.length then
      some (items.map some ++ List.replicate (names.length - items.length) none)
    else none
  | _ => none

def string? : Json → Option String
  | string s => some s
  | _ => none

def bool? : Json → Option Bool
  | bool b => some b
  | _ => none

def items? : Json → Option (List Json)
  | array xs => some xs
  | _ => none

def numeral? : Json → Option Numeral
  | number n => some n
  | _ => none

/-- An integer, if the value is spelled as one. -/
def int? : Json → Option Int
  | number n => n.toInt?
  | _ => none

/-- A natural number of at most 64 bits. -/
def word64? (j : Json) : Option Nat :=
  match j.int? with
  | some (.ofNat n) => if n ≤ 0xFFFFFFFFFFFFFFFF then some n else none
  | _ => none

/-- A list of texts. -/
def strings? : Json → Option (List String)
  | array xs => xs.mapM string?
  | _ => none

/-- An integer as a value. -/
def ofInt (i : Int) : Json := number (.ofInt i)

/-- A natural number as a value. -/
def ofNat (n : Nat) : Json := ofInt n

end Json

end GraphBase
