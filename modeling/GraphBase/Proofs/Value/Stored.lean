import GraphBase.Proofs.Json.Range
import GraphBase.Proofs.Json.RoundTrip
import GraphBase.Value.Properties

/-!
# Properties that were stored

Whatever properties a table is given, the text that it keeps reads as properties again
(`decode?_encode`), with the same keys.  The values need not be the same ones (`Scalar.reread`): an
infinity is kept as null, and a floating point number may be read as one next to it.  All other
values are read as they were written (`Scalar.reread_of_notFloat`).
-/

namespace GraphBase

open GraphBase.Number

namespace Json.Numeral

/-- An integer is read as it was written. -/
theorem toInt?_ofInt (i : Int) : (ofInt i).toInt? = some i := by
  have hinteger : (ofInt i).isInteger = true := rfl
  rw [toInt?, if_pos hinteger, ofInt]
  simp only
  rcases lt_or_ge i 0 with hneg | hpos
  · rw [if_pos (decide_eq_true hneg), if_neg (by omega), Option.some_inj]
    omega
  · rw [if_neg (by simpa using hpos), Option.some_inj]
    omega

/-- A floating point number is never written as an integer. -/
theorem isInteger_numeral (layout : DataLayout) (negative : Bool) (d : Decimal) :
    (layout.numeral negative d).isInteger = false := by
  rw [DataLayout.numeral]
  simp only
  split_ifs
  · rfl
  · split
    · rfl
    · rename_i n hexponent
      have hne : padDigits (n + 1) (d.digits % tenPow (n + 1)) ≠ [] := by
        rw [padDigits]
        exact List.append_ne_nil_of_right_ne_nil _ (toDigits_ne_nil _)
      rw [isInteger, List.isEmpty_eq_false_iff.2 hne, Bool.false_and]
  · rw [isInteger, Option.isNone_some, Bool.and_false]

theorem isInteger_of_ofBinary64? {x : Binary64} {n : Numeral} (h : ofBinary64? x = some n) :
    n.isInteger = false := by
  rw [ofBinary64?] at h
  cases hx : x.unpack with
  | finite negative m e =>
    rw [hx, ofUnpacked?, Option.some_inj] at h
    rw [← h, isInteger_numeral]
  | _ =>
    rw [hx] at h
    cases h

end Json.Numeral

namespace Scalar

/-- The integers of 64 bits fit 64 bits. -/
theorem fitsInt64_toInt (i : Int64) : fitsInt64 i.toInt = true := by
  have hle := i.le_toInt
  have hlt := i.toInt_lt
  rw [fitsInt64, Bool.and_eq_true, decide_eq_true_iff, decide_eq_true_iff]
  exact ⟨hle, hlt⟩

theorem isProper_toJson (x : Scalar) : x.toJson.IsProper := by
  cases x with
  | int i => exact Json.Numeral.isProper_ofInt i.toInt
  | float x =>
    rw [toJson]
    cases h : Json.Numeral.ofBinary64? x with
    | none => trivial
    | some n => exact Json.Numeral.isProper_of_ofUnpacked? h
  | _ => trivial

/-- **A scalar that was written reads as a scalar.** -/
theorem isSome_ofJson?_toJson (x : Scalar) : (ofJson? x.toJson).isSome = true := by
  cases x with
  | int i =>
    show (ofNumeral? (.ofInt i.toInt)).isSome = true
    rw [ofNumeral?, Json.Numeral.toInt?_ofInt]
    simp only [fitsInt64_toInt, if_true]
    rfl
  | float x =>
    rw [toJson]
    cases h : Json.Numeral.ofBinary64? x with
    | none => rfl
    | some n =>
      have hread := Json.Numeral.isSome_toBinary64?_of_ofBinary64? h
      have hinteger : n.toInt? = none := by
        rw [Json.Numeral.toInt?, Json.Numeral.isInteger_of_ofBinary64? h,
          if_neg Bool.false_ne_true]
      show (ofNumeral? n).isSome = true
      rw [ofNumeral?, hinteger]
      simp only [Option.isSome_map]
      exact hread
  | _ => rfl

/-- What a scalar is read as after it has been written. -/
def reread (x : Scalar) : Scalar := (ofJson? x.toJson).getD null

theorem ofJson?_toJson (x : Scalar) : ofJson? x.toJson = some x.reread := by
  obtain ⟨y, hy⟩ := Option.isSome_iff_exists.1 x.isSome_ofJson?_toJson
  rw [reread, hy, Option.getD_some]

/-- **What is no floating point number is read as it was written.** -/
theorem reread_of_notFloat {x : Scalar} (hx : ∀ y, x ≠ float y) : x.reread = x := by
  cases x with
  | float y => exact absurd rfl (hx y)
  | int i =>
    have hint : ofJson? (int i).toJson = some (int i) := by
      show ofNumeral? (.ofInt i.toInt) = some (int i)
      rw [ofNumeral?, Json.Numeral.toInt?_ofInt]
      simp only [fitsInt64_toInt, if_true, Int64.ofInt_toInt]
    rw [reread, hint, Option.getD_some]
  | _ => rfl

/-- The number behind `5e32` is written as `5.0000000000000004e+32`, which is read as `5e32`. -/
example : (float ⟨0x46b8a6e32246c99d⟩).reread = float ⟨0x46b8a6e32246c99c⟩ := by decide +kernel

end Scalar

namespace Properties

theorem isProper_toJson (p : Properties) : p.toJson.IsProper := by
  rw [toJson, Json.IsProper, Json.haveProper_iff]
  intro m hm
  obtain ⟨e, -, rfl⟩ := List.mem_map.1 hm
  exact e.2.isProper_toJson

/-- Entries that stand in order make properties of just these entries. -/
theorem ofList_entries (p : Properties) : ofList p.entries = p := by
  have hinsert : ∀ (entries : List (String × Scalar)) (e : String × Scalar),
      (∀ x ∈ entries, x.1 < e.1) → insertEntry e.1 e.2 entries = entries ++ [e] := by
    intro entries e he
    induction entries with
    | nil => rfl
    | cons x rest ih =>
      rw [List.forall_mem_cons] at he
      rw [insertEntry, if_neg (String.lt_asymm he.1), if_neg (String.ne_of_lt he.1).symm, ih he.2,
        List.cons_append]
  -- the entries that are in already come before those that are not
  have hfold : ∀ (rest : List (String × Scalar)) (q : Properties),
      KeySorted (q.entries ++ rest) →
      (rest.foldl (fun p e => p.insert e.1 e.2) q).entries = q.entries ++ rest := by
    intro rest
    induction rest with
    | nil => exact fun q _ => (List.append_nil _).symm
    | cons e rest ih =>
      intro q hsorted
      have hlt : ∀ x ∈ q.entries, x.1 < e.1 := fun x hx =>
        (List.pairwise_append.1 hsorted).2.2 x hx e List.mem_cons_self
      have hq : (q.insert e.1 e.2).entries = q.entries ++ [e] := hinsert q.entries e hlt
      rw [List.append_cons, ← hq] at hsorted ⊢
      exact ih _ hsorted
  have hentries : (ofList p.entries).entries = p.entries := hfold p.entries empty p.sorted
  cases hp : ofList p.entries with
  | mk entries sorted =>
    rw [hp] at hentries
    obtain rfl : entries = p.entries := hentries
    rfl

theorem keySorted_map_reread {entries : List (String × Scalar)} (h : KeySorted entries) :
    KeySorted (entries.map fun e => (e.1, e.2.reread)) := List.pairwise_map.2 h

/-- What properties are read as after they have been written. -/
def reread (p : Properties) : Properties where
  entries := p.entries.map fun e => (e.1, e.2.reread)
  sorted := keySorted_map_reread p.sorted

/-- Properties are read as they were written if every value is. -/
theorem reread_eq_self {p : Properties} (h : ∀ e ∈ p.entries, e.2.reread = e.2) :
    p.reread = p := by
  have hentries : p.entries.map (fun e => (e.1, e.2.reread)) = p.entries := by
    refine (List.map_congr_left fun e he => ?_).trans (List.map_id p.entries)
    rw [h e he]
    rfl
  cases p with
  | mk entries sorted =>
    rw [reread, mk.injEq]
    exact hentries

theorem ofMembers?_map (entries : List (String × Scalar)) :
    ofMembers? (entries.map fun e => (e.1, e.2.toJson)) =
      some (entries.map fun e => (e.1, e.2.reread)) := by
  induction entries with
  | nil => rfl
  | cons e rest ih => rw [List.map_cons, ofMembers?, e.2.ofJson?_toJson, ih, List.map_cons]

theorem isBlank_encode (p : Properties) : Text.isBlank p.encode = false := by
  rw [encode, Json.render, Text.isBlank, String.toList_ofList, toJson, Json.toChars,
    List.all_cons]
  exact Bool.and_eq_false_imp.2 fun h => absurd h (by decide)

/-- Properties are read from their JSON value with every value reread. -/
theorem ofJson?_toJson (p : Properties) : ofJson? p.toJson = some p.reread := by
  have hread : ofMembers? (p.entries.map fun e => (e.1, e.2.toJson)) = some p.reread.entries :=
    ofMembers?_map p.entries
  rw [toJson, ofJson?, hread, Option.map_some, ofList_entries]

/-- **Stored properties read as properties** with the same keys. -/
theorem decode?_encode (p : Properties) : decode? p.encode = some p.reread := by
  rw [decode?, p.isBlank_encode, if_neg Bool.false_ne_true, encode,
    Json.parse?_render p.isProper_toJson]
  exact p.ofJson?_toJson

/-- Only the empty properties have the text of the empty properties. -/
theorem eq_empty_of_encode {p : Properties} (h : p.encode = empty.encode) : p = empty := by
  have hread : p.reread = empty.reread :=
    Option.some.inj ((p.decode?_encode.symm.trans (congrArg decode? h)).trans empty.decode?_encode)
  have hentries : p.entries.map (fun e => (e.1, e.2.reread)) = [] :=
    congrArg Properties.entries hread
  cases p with
  | mk entries sorted =>
    obtain rfl : entries = [] := List.map_eq_nil_iff.1 hentries
    rfl

end Properties

end GraphBase
