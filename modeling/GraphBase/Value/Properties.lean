import GraphBase.Json.Text
import GraphBase.Text.Blank
import GraphBase.Value.Scalar

/-!
# Property bags

A property bag maps keys to scalars.  It is a list of entries in strictly ascending
order of their keys, and the order is part of the type, so two bags with the same
entries are equal and every bag has exactly one text.

A table keeps a bag as a JSON text.  `encode` writes it and `decode?` reads it back;
a blank text reads as the empty bag, a repeated key keeps its last value, and a text
that is no JSON object of scalars does not read at all.
-/

namespace GraphBase

/-- Entries in strictly ascending order of their keys. -/
def KeySorted (entries : List (String × Scalar)) : Prop :=
  entries.Pairwise fun a b => a.1 < b.1

/-- A map from keys to scalars, in the order of the keys. -/
structure Properties where
  entries : List (String × Scalar)
  sorted : KeySorted entries
  deriving DecidableEq

namespace Properties

/-- The bag without entries. -/
def empty : Properties := ⟨[], .nil⟩

instance : Inhabited Properties := ⟨empty⟩

/-- Puts an entry at its place; an entry of the same key is replaced. -/
def insertEntry (key : String) (value : Scalar) :
    List (String × Scalar) → List (String × Scalar)
  | [] => [(key, value)]
  | e :: rest =>
    if key < e.1 then (key, value) :: e :: rest
    else if key = e.1 then (key, value) :: rest
    else e :: insertEntry key value rest

/-- Every entry after an insertion is the new one or an old one. -/
theorem mem_insertEntry {key : String} {value : Scalar} {entries : List (String × Scalar)}
    {e : String × Scalar} (h : e ∈ insertEntry key value entries) :
    e = (key, value) ∨ e ∈ entries := by
  induction entries with
  | nil => simpa [insertEntry] using h
  | cons x rest ih =>
    unfold insertEntry at h
    split at h
    · rcases List.mem_cons.1 h with rfl | h
      · exact .inl rfl
      · exact .inr h
    · split at h
      · rcases List.mem_cons.1 h with rfl | h
        · exact .inl rfl
        · exact .inr (List.mem_cons_of_mem _ h)
      · rcases List.mem_cons.1 h with rfl | h
        · exact .inr List.mem_cons_self
        · exact (ih h).imp id (List.mem_cons_of_mem _)

/-- An insertion keeps the order. -/
theorem keySorted_insertEntry (key : String) (value : Scalar)
    {entries : List (String × Scalar)} (h : KeySorted entries) :
    KeySorted (insertEntry key value entries) := by
  induction entries with
  | nil => simp [insertEntry, KeySorted]
  | cons x rest ih =>
    have hx := List.pairwise_cons.1 h
    unfold insertEntry
    split
    · rename_i hlt
      refine List.pairwise_cons.2 ⟨?_, h⟩
      intro e he
      rcases List.mem_cons.1 he with rfl | he
      · exact hlt
      · exact String.lt_trans hlt (hx.1 e he)
    · split
      · rename_i heq
        exact List.pairwise_cons.2 ⟨fun e he => heq ▸ hx.1 e he, hx.2⟩
      · rename_i hlt hne
        refine List.pairwise_cons.2 ⟨?_, ih hx.2⟩
        intro e he
        rcases mem_insertEntry he with rfl | he
        · have hle : x.1 ≤ key := String.not_lt.1 hlt
          exact Classical.byContradiction fun hn =>
            hne (String.le_antisymm (String.not_lt.1 hn) hle)
        · exact hx.1 e he

/-- The bag with one more entry, which replaces one of the same key. -/
def insert (p : Properties) (key : String) (value : Scalar) : Properties :=
  ⟨insertEntry key value p.entries, keySorted_insertEntry key value p.sorted⟩

/-- The bag of a list of entries; of several entries of one key the last counts. -/
def ofList (entries : List (String × Scalar)) : Properties :=
  entries.foldl (fun p e => p.insert e.1 e.2) empty

/-- The value of a key. -/
def get? (p : Properties) (key : String) : Option Scalar :=
  (p.entries.find? fun e => e.1 == key).map (·.2)

/-- Whether the bag has no entry. -/
def isEmpty (p : Properties) : Bool := p.entries.isEmpty

/-- The bag without the entries whose value is null or the empty text. -/
def removeEmpty (p : Properties) : Properties :=
  ⟨p.entries.filter fun e => !e.2.isEmpty, p.sorted.filter _⟩

/-- The entries for people, `key=value` separated by commas. -/
def display (p : Properties) : String :=
  ", ".intercalate (p.entries.map fun e => e.1 ++ "=" ++ e.2.display)

/-! ## JSON -/

/-- The JSON object of a bag. -/
def toJson (p : Properties) : Json := .object (p.entries.map fun e => (e.1, e.2.toJson))

/-- Reads the members of an object; every value has to be a scalar. -/
def ofMembers? : List (String × Json) → Option (List (String × Scalar))
  | [] => some []
  | (k, v) :: rest =>
    match Scalar.ofJson? v, ofMembers? rest with
    | some x, some xs => some ((k, x) :: xs)
    | _, _ => none

/-- Reads a JSON object of scalars. -/
def ofJson? : Json → Option Properties
  | .object members => (ofMembers? members).map ofList
  | _ => none

/-- The text that a table keeps. -/
def encode (p : Properties) : String := p.toJson.render

/-- Reads a text that a table keeps. -/
def decode? (text : String) : Option Properties :=
  if Text.isBlank text then some empty
  else
    match Json.parse? text with
    | some j => ofJson? j
    | none => none

@[simp] theorem entries_empty : empty.entries = [] := rfl

@[simp] theorem entries_insert (p : Properties) (key : String) (value : Scalar) :
    (p.insert key value).entries = insertEntry key value p.entries := rfl

@[simp] theorem entries_removeEmpty (p : Properties) :
    p.removeEmpty.entries = p.entries.filter fun e => !e.2.isEmpty := rfl

end Properties

end GraphBase
