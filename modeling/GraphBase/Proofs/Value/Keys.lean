import GraphBase.Proofs.Json.Labels
import GraphBase.Proofs.Value.Matching

/-!
# Which keys can be asked for

Any key can be stored, but not every key can be asked for.  A filter on a key with a quote, a
backslash or a NUL is decided without a look at what is stored for that key, and the other keys are
those that it does look at (`isOverlooked_iff`).

Such a filter still looks at something.  Its label may name another key, and where the path makes no
sense behind the label, the decision fails.
-/

namespace GraphBase

open GraphBase.Json (Lenient KeyPath escapeChar keyPath readPath labelMatches)

/-- The entries of all other keys. -/
def Properties.entriesBeside (p : Properties) (key : String) : List (String × Scalar) :=
  p.entries.filter fun e => e.1 != key

/-- A filter on a key is decided by what is stored for other keys. -/
def IsOverlooked (key : String) : Prop :=
  ∀ p q : Properties, p.entriesBeside key = q.entriesBeside key → ∀ value,
    matchesProperty p.encode key value = matchesProperty q.encode key value

theorem not_isPlainKey_iff {key : String} :
    ¬IsPlainKey key ↔ '"' ∈ key.toList ∨ '\\' ∈ key.toList ∨ '\x00' ∈ key.toList := by
  rw [IsPlainKey, not_and_or, not_and_or, not_not, not_not, not_not]

/-- What the first label of a path leads to. -/
theorem at?_push_member (label : List Char) (path : KeyPath) (p : Properties) :
    Lenient.at? (path.push (.member label true)).steps path.ending (Lenient.ofProperties p) =
      match p.entries.find? fun e => labelMatches label true (e.1.toList.flatMap escapeChar) with
      | some e => Lenient.at? path.steps path.ending (Lenient.ofScalar e.2)
      | none => .ok none := by
  rw [KeyPath.push, Lenient.ofProperties, Lenient.at?, List.find?_map, Function.comp_def]
  cases p.entries.find? fun e => labelMatches label true (e.1.toList.flatMap escapeChar) <;> rfl

/-- The first label of a path does not lead to a key that it does not name. -/
theorem find?_eq_entriesBeside {label : List Char} {key : String}
    (h : labelMatches label true (key.toList.flatMap escapeChar) = false) (p : Properties) :
    (p.entries.find? fun e => labelMatches label true (e.1.toList.flatMap escapeChar)) =
      (p.entriesBeside key).find? fun e =>
        labelMatches label true (e.1.toList.flatMap escapeChar) := by
  rw [Properties.entriesBeside, List.find?_filter]
  refine congrArg (List.find? · p.entries) (funext fun e => ?_)
  by_cases he : e.1 = key
  · simp [he, h]
  · simp [he]

/-- **A key is overlooked if it is not plain**, and only then. -/
theorem isOverlooked_iff {key : String} : IsOverlooked key ↔ ¬IsPlainKey key := by
  constructor
  · intro hoverlooked hkey
    have hbeside : (Properties.ofList [(key, .int 1)]).entriesBeside key =
        Properties.empty.entriesBeside key := by
      show [(key, Scalar.int 1)].filter (fun e => e.1 != key) = []
      simp
    have hcell : (Properties.ofList [(key, .int 1)]).cellAt key = .integer 1 := by
      have hvalue : (Properties.ofList [(key, .int 1)]).get? key = some (.int 1) := by
        show ([(key, Scalar.int 1)].find? fun e => e.1 == key).map (·.2) = _
        simp
      rw [Properties.cellAt_of_name hkey (List.forall_mem_singleton.2 fun _ => rfl), hvalue]
      rfl
    have hsame := hoverlooked _ _ hbeside (.int 1)
    rw [Properties.matchesProperty_encode _ hkey, Properties.matchesProperty_encode _ hkey,
      hcell] at hsame
    cases hsame
  · intro hkey p q hbeside value
    have hat : Lenient.at? (readPath (keyPath key)).steps (readPath (keyPath key)).ending
        (Lenient.ofProperties p) = Lenient.at? (readPath (keyPath key)).steps
          (readPath (keyPath key)).ending (Lenient.ofProperties q) := by
      obtain hpath | ⟨label, path, hpath, hlabel⟩ :=
        Json.readPath_keyPath_of_mem (not_isPlainKey_iff.1 hkey)
      · rw [hpath]
        rfl
      · rw [hpath]
        refine (at?_push_member label path p).trans (Eq.trans ?_ (at?_push_member label path q).symm)
        rw [find?_eq_entriesBeside hlabel, find?_eq_entriesBeside hlabel q, hbeside]
    rw [matchesProperty, matchesProperty, Json.extract, Json.extract, Lenient.parse?_encode,
      Lenient.parse?_encode]
    simp only [hat]

/-- What is stored for a key with a backslash is not found. -/
example : matchesProperty (Properties.ofList [("c\\d", .int 1)]).encode "c\\d" (.int 1) =
    .ok false := by decide +kernel

end GraphBase
