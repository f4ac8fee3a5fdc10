/-!
# Finding text in text

Connection strings, statements and file paths are taken apart at fixed marks.  The
functions here work on lists of characters; each returns the parts without the mark.
-/

namespace GraphBase.Text

/-- What follows a fixed beginning, if the text begins with it. -/
def dropStart? : List Char → List Char → Option (List Char)
  | [], cs => some cs
  | _ :: _, [] => none
  | m :: mark, c :: cs => if m = c then dropStart? mark cs else none

/-- Whether a text begins with a mark. -/
def startsWith (mark cs : List Char) : Bool := (dropStart? mark cs).isSome

/-- The parts before and after the first occurrence of a mark. -/
def splitFirst? (mark : List Char) : List Char → Option (List Char × List Char)
  | [] => if mark.isEmpty then some ([], []) else none
  | c :: cs =>
    match dropStart? mark (c :: cs) with
    | some rest => some ([], rest)
    | none => (splitFirst? mark cs).map fun (before, after) => (c :: before, after)

/-- Whether a mark occurs anywhere. -/
def contains (mark cs : List Char) : Bool := (splitFirst? mark cs).isSome

/-- The parts between all occurrences of a mark. -/
def splitAll {α : Type} [DecidableEq α] (mark : α) : List α → List (List α)
  | [] => [[]]
  | c :: cs =>
    if c = mark then [] :: splitAll mark cs
    else
      match splitAll mark cs with
      | [] => [[c]]
      | part :: parts => (c :: part) :: parts

/-- A letter without its case, for ASCII letters. -/
def lowerAscii (c : Char) : Char := if 'A' ≤ c ∧ c ≤ 'Z' then Char.ofNat (c.toNat + 32) else c

/-- A name without case, for ASCII letters. -/
def foldCase (s : String) : String := String.ofList (s.toList.map lowerAscii)

theorem dropStart?_eq_some {mark cs rest : List Char} (h : dropStart? mark cs = some rest) :
    cs = mark ++ rest := by
  induction mark generalizing cs with
  | nil => simpa [dropStart?] using h
  | cons m mark ih =>
    cases cs with
    | nil => simp [dropStart?] at h
    | cons c cs =>
      unfold dropStart? at h
      split at h
      · rename_i hm
        rw [hm, ih h, List.cons_append]
      · simp at h

theorem dropStart?_append (mark rest : List Char) : dropStart? mark (mark ++ rest) = some rest := by
  induction mark with
  | nil => rfl
  | cons m mark ih => simp [dropStart?, ih]

theorem startsWith_iff {mark cs : List Char} : startsWith mark cs = true ↔ mark <+: cs := by
  unfold startsWith
  rw [Option.isSome_iff_exists]
  constructor
  · rintro ⟨rest, h⟩
    exact ⟨rest, (dropStart?_eq_some h).symm⟩
  · rintro ⟨rest, rfl⟩
    exact ⟨rest, dropStart?_append mark rest⟩

theorem dropStart?_eq_none_iff {mark cs : List Char} :
    dropStart? mark cs = none ↔ ¬ mark <+: cs := by
  rw [← startsWith_iff, startsWith, Bool.not_eq_true, Option.isSome_eq_false_iff,
    Option.isNone_iff_eq_none]

theorem splitFirst?_eq_none_iff {mark cs : List Char} :
    splitFirst? mark cs = none ↔ ¬ mark <:+: cs := by
  induction cs with
  | nil =>
    rw [splitFirst?, List.infix_nil, ← List.isEmpty_iff]
    cases mark.isEmpty <;> simp
  | cons c cs ih =>
    rw [List.infix_cons_iff, not_or, ← dropStart?_eq_none_iff, ← ih, splitFirst?]
    cases dropStart? mark (c :: cs) <;> simp

end GraphBase.Text
