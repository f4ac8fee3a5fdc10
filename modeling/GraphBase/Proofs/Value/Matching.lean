import GraphBase.Graph.Selection
import GraphBase.Proofs.Json.StoredTexts

/-!
# Filters on stored properties

A filter on properties is decided on stored texts, by the reader of the database.  This file says
what the decision is in terms of the properties that were stored (`Properties.matchesAll_encode`):
for each key of the filter the database finds a cell (`Properties.cellAt`), and this is compared
with the given value.  The decision does not fail, since what a store has written can be read.

## Where the cell is not the value

The cell is that of the stored value (`Scalar.toCell`), with two exceptions.

* A floating point number is written with the fewest digits that read back, and the database reads
  these digits in its own way.  It may arrive at a number next to the one that was written
  (`Scalar.storedCell`).
* The comparison of two names ends at a NUL.  So a key finds the first member that has it for a
  name up to a NUL.

Where neither is the case (`Properties.IsFaithfulAt`), the cell is that of the value that the
properties have for the key (`Properties.cellAt_eq`), and the filter decides what it says
(`Properties.Has`).
-/

namespace GraphBase

open GraphBase.Number (ofDigits_toDigits toDigits Binary64)
open GraphBase.Json (Numeral Lenient LenientNumber escapeChar cutName)

/-! ## What cannot be decided -/

/-- Going down a path fails in one way only. -/
theorem Json.Lenient.eq_badStatement_of_at? {steps : List PathStep} {ending : PathEnd}
    {j : Lenient} {f : StorageFault} (h : Lenient.at? steps ending j = .error f) :
    f = .badStatement := by
  fun_induction Lenient.at? steps ending j <;> first | exact (Except.error.inj h).symm | simp_all

/-- Looking for the value of a key fails in one way only. -/
theorem Json.eq_badStatement_of_extract {text path : String} {f : StorageFault}
    (h : Json.extract text path = .error f) : f = .badStatement := by
  rw [Json.extract] at h
  split at h
  · exact (Except.error.inj h).symm
  · simp only at h
    split at h
    · rename_i hat
      obtain rfl := Except.error.inj h
      exact Lenient.eq_badStatement_of_at? hat
    · cases h
    · split at h
      · cases h
      · exact (Except.error.inj h).symm

/-- **A filter that cannot be decided** is a bad statement, whatever is wrong with it or with the
text. -/
theorem eq_badStatement_of_matchesAll {text : String} {entries : List (String × Scalar)}
    {f : StorageFault} (h : matchesAll text entries = .error f) : f = .badStatement := by
  induction entries with
  | nil => cases h
  | cons e rest ih =>
    rw [matchesAll] at h
    split at h
    · exact ih h
    · rw [matchesProperty] at h
      cases hcell : Json.extract text (Json.keyPath e.1) with
      | ok c =>
        rw [hcell] at h
        cases h
      | error g =>
        rw [hcell] at h
        obtain rfl := Except.error.inj h
        exact Json.eq_badStatement_of_extract hcell

/-! ## Values -/

/-- The cell that the database finds where a floating point number was written. -/
def storedNumber (x : Binary64) : Cell :=
  match Numeral.ofBinary64? x with
  | some n =>
    .real (LenientNumber.toBinary64 n.negative (toDigits n.whole) n.fraction
      (Numeral.exponentText n.exponent))
  | none => .null

/-- The cell that the database finds where a scalar was written. -/
def Scalar.storedCell : Scalar → Cell
  | float x => storedNumber x
  | x => x.toCell

theorem Scalar.storedCell_of_notFloat {x : Scalar} (hx : ∀ y, x ≠ .float y) :
    x.storedCell = x.toCell.bound := by
  cases x with
  | float x => exact absurd rfl (hx x)
  | _ => rfl

namespace Json.Lenient

/-- An integer is found as it was written. -/
theorem toCell?_integer (i : Int64) :
    (ofNumeral (.ofInt i.toInt)).toCell? = some (.integer i) := by
  have hvalue : (if (Numeral.ofInt i.toInt).negative then -((Numeral.ofInt i.toInt).whole : Int)
      else (Numeral.ofInt i.toInt).whole) = i.toInt := by
    rw [Numeral.ofInt]
    simp only [decide_eq_true_eq]
    split_ifs <;> omega
  show (LenientNumber.decimal _ (toDigits _) none []).toCell? = _
  rw [LenientNumber.toCell?]
  simp only [ofDigits_toDigits, hvalue, Scalar.fitsInt64_toInt, if_true, Int64.ofInt_toInt]

/-- A number that is not spelled as an integer has double precision. -/
theorem toCell?_numeral {n : Numeral} (hn : n.isInteger = false) :
    (ofNumeral n).toCell? = some (.real (LenientNumber.toBinary64 n.negative (toDigits n.whole)
      n.fraction (Numeral.exponentText n.exponent))) := by
  obtain ⟨negative, whole, fraction, exponent⟩ := n
  cases fraction with
  | cons d ds => cases exponent <;> rfl
  | nil =>
    cases exponent with
    | some e => rfl
    | none => cases hn

/-- **A scalar that was written is found**, a floating point number as its digits are read. -/
theorem toCell?_ofScalar (x : Scalar) : (ofScalar x).toCell? = some x.storedCell := by
  cases x with
  | null => rfl
  | bool b => rfl
  | int i => exact toCell?_integer i
  | float x =>
    rw [ofScalar, Scalar.storedCell, storedNumber]
    cases hx : Numeral.ofBinary64? x with
    | none => rfl
    | some n => exact toCell?_numeral (Numeral.isInteger_of_ofBinary64? hx)
  | text s =>
    have hcodes : codes (s.toList.flatMap escapeChar) = s.toList.map Escaped.codeOf :=
      Escaped.codes_escaped s.toList
    rw [ofScalar, ofText, toCell?, hcodes, Escaped.textOf?_map_codeOf, String.ofList_toList]
    rfl

/-- The database reads `1e126` as the number behind it. -/
example : (Scalar.float ⟨0x5a17a2ecc414a03f⟩).storedCell = .real ⟨0x5a17a2ecc414a040⟩ := by
  decide +kernel

end Json.Lenient

/-! ## Keys -/

/-- A key that addresses itself. -/
def IsPlainKey (key : String) : Prop := '"' ∉ key.toList ∧ '\\' ∉ key.toList ∧ '\x00' ∉ key.toList

instance (key : String) : Decidable (IsPlainKey key) :=
  inferInstanceAs (Decidable (_ ∧ _ ∧ _))

/-- The path of a plain key has one step, to the members of that name. -/
theorem readPath_keyPath {key : String} (hkey : IsPlainKey key) :
    Json.readPath (Json.keyPath key) = ⟨[.member key.toList true], .complete⟩ := by
  obtain ⟨hquote, -, hnul⟩ := hkey
  have hescape : Json.escapeQuotes key.toList = key.toList := by
    rw [Json.escapeQuotes]
    refine (List.flatMap_congr fun c hc => ?_).trans (List.flatMap_singleton' key.toList)
    rw [if_neg]
    rintro rfl
    exact hquote hc
  have hpath : (Json.keyPath key).toList = '$' :: '.' :: '"' :: (key.toList ++ ['"']) := by
    show (String.ofList ("$.\"".toList ++ Json.escapeQuotes key.toList ++ ['"'])).toList = _
    rw [hescape, String.toList_ofList]
    rfl
  have hwhole : cutName (Json.keyPath key).toList = (Json.keyPath key).toList := by
    refine Json.cutName_eq_self ?_
    rw [hpath]
    simp [hnul]
  have hlabel : (key.toList ++ ['"']).takeWhile (· ≠ '"') = key.toList ∧
      (key.toList ++ ['"']).dropWhile (· ≠ '"') = ['"'] := by
    have hall : ∀ c ∈ key.toList, decide (c ≠ '"') = true := by
      intro c hc
      rw [decide_eq_true_eq]
      rintro rfl
      exact hquote hc
    rw [List.takeWhile_append_of_pos hall, List.dropWhile_append_of_pos hall]
    exact ⟨List.append_nil _, rfl⟩
  have hread : Json.readLabel? ('"' :: (key.toList ++ ['"'])) =
      some (.member key.toList true, []) := by
    rw [Json.readLabel?, hlabel.1, hlabel.2]
  rw [cutName] at hwhole
  rw [Json.readPath, hwhole, hpath]
  simp only [List.length_cons, Json.readSteps, hread]
  rfl

namespace Properties

/-- The cell that the database finds for a key: that of the first entry that has it for a name up
to a NUL. -/
def cellAt (p : Properties) (key : String) : Cell :=
  match p.entries.find? fun e => cutName e.1.toList == key.toList with
  | some e => e.2.storedCell
  | none => .null

/-- What is found for a key is what was stored for it: no other key is taken for this one, and its
value is read as it was written. -/
structure IsFaithfulAt (p : Properties) (key : String) : Prop where
  name : ∀ e ∈ p.entries, cutName e.1.toList = key.toList → e.1 = key
  value : ∀ e ∈ p.entries, e.1 = key → e.2.storedCell = e.2.toCell.bound

/-- Only floating point numbers may be read as something else, and only keys with a NUL may be
taken for another. -/
theorem isFaithfulAt_of_notFloat {p : Properties} (hkeys : ∀ e ∈ p.entries, '\x00' ∉ e.1.toList)
    (hvalues : ∀ e ∈ p.entries, ∀ x, e.2 ≠ .float x) (key : String) : p.IsFaithfulAt key := by
  refine ⟨fun e he hcut => ?_, fun e he _ => ?_⟩
  · rw [Json.cutName_eq_self (hkeys e he)] at hcut
    exact String.toList_inj.1 hcut
  · exact Scalar.storedCell_of_notFloat (hvalues e he)

/-- The cell of a key is the one where its value was written, if no other key is taken for it. -/
theorem cellAt_of_name {p : Properties} {key : String} (hkey : IsPlainKey key)
    (h : ∀ e ∈ p.entries, cutName e.1.toList = key.toList → e.1 = key) :
    p.cellAt key = match p.get? key with
      | some value => value.storedCell
      | none => .null := by
  have hfind : (p.entries.find? fun e => cutName e.1.toList == key.toList) =
      p.entries.find? fun e => e.1 == key := by
    rw [← List.head?_filter, ← List.head?_filter]
    refine congrArg List.head? (List.filter_congr fun e he => ?_)
    rw [Bool.eq_iff_iff, beq_iff_eq, beq_iff_eq]
    refine ⟨h e he, ?_⟩
    rintro rfl
    exact Json.cutName_eq_self hkey.2.2
  rw [cellAt, get?, hfind]
  cases p.entries.find? fun e => e.1 == key <;> rfl

theorem mem_of_get? {p : Properties} {key : String} {value : Scalar}
    (h : p.get? key = some value) : (key, value) ∈ p.entries := by
  obtain ⟨e, he, rfl⟩ := Option.map_eq_some_iff.1 h
  obtain rfl : e.1 = key := by simpa using List.find?_some he
  exact List.mem_of_find?_eq_some he

/-- **The cell of a key is that of its value**, if what is found for it is what was stored. -/
theorem cellAt_eq {p : Properties} {key : String} (hkey : IsPlainKey key)
    (h : p.IsFaithfulAt key) :
    p.cellAt key = match p.get? key with
      | some value => value.toCell.bound
      | none => .null := by
  rw [cellAt_of_name hkey h.name]
  cases hvalue : p.get? key with
  | none => rfl
  | some value => exact h.value _ (mem_of_get? hvalue) rfl

/-- **The database finds a cell for every plain key** of a stored text. -/
theorem extract_encode (p : Properties) {key : String} (hkey : IsPlainKey key) :
    Json.extract p.encode (Json.keyPath key) = .ok (p.cellAt key) := by
  have hfind : ((p.entries.map fun e => (e.1.toList.flatMap escapeChar, Lenient.ofScalar e.2)).find?
      fun m => Json.labelMatches key.toList true m.1) =
      (p.entries.find? fun e => cutName e.1.toList == key.toList).map fun e =>
        (e.1.toList.flatMap escapeChar, Lenient.ofScalar e.2) := by
    rw [List.find?_map]
    refine congrArg _ (congrArg (List.find? · p.entries) (funext fun e => ?_))
    rw [Function.comp, Bool.eq_iff_iff, beq_iff_eq]
    exact Json.labelMatches_iff ⟨hkey.2.1, hkey.2.2⟩
  rw [Json.extract, Lenient.parse?_encode, cellAt]
  simp only [readPath_keyPath hkey, Lenient.ofProperties, Lenient.at?, hfind]
  cases p.entries.find? fun e => cutName e.1.toList == key.toList with
  | none => rfl
  | some e =>
    simp only [Option.map_some, Lenient.toCell?_ofScalar]

/-- **Whether stored properties have a value** is decided on the cell. -/
theorem matchesProperty_encode (p : Properties) {key : String} (hkey : IsPlainKey key)
    (value : Scalar) :
    matchesProperty p.encode key value = .ok ((p.cellAt key).equals value.toCell.bound) := by
  rw [matchesProperty, extract_encode p hkey]
  rfl

/-- The properties have all values of a filter, as the database sees it. -/
def Matches (p filter : Properties) : Prop :=
  ∀ e ∈ filter.entries, (p.cellAt e.1).equals e.2.toCell.bound = true

instance (p filter : Properties) : Decidable (p.Matches filter) :=
  inferInstanceAs (Decidable (∀ e ∈ filter.entries, _))

/-- **Whether stored properties have all values of a filter** is decided on the cells, and the
decision does not fail. -/
theorem matchesAll_encode (p : Properties) {filter : Properties}
    (hkeys : ∀ e ∈ filter.entries, IsPlainKey e.1) :
    matchesAll p.encode filter.entries = .ok (decide (p.Matches filter)) := by
  have hall : ∀ entries : List (String × Scalar), (∀ e ∈ entries, IsPlainKey e.1) →
      matchesAll p.encode entries =
        .ok (entries.all fun e => (p.cellAt e.1).equals e.2.toCell.bound) := by
    intro entries hplain
    induction entries with
    | nil => rfl
    | cons e rest ih =>
      rw [List.forall_mem_cons] at hplain
      rw [matchesAll, matchesProperty_encode p hplain.1, List.all_cons]
      cases (p.cellAt e.1).equals e.2.toCell.bound with
      | true => exact ih hplain.2
      | false => rfl
  rw [hall filter.entries hkeys]
  refine congrArg _ ?_
  rw [Bool.eq_iff_iff, List.all_eq_true, decide_eq_true_eq]
  exact Iff.rfl

/-- The properties have all values of a filter, and what is found for its keys is what was stored
for them. -/
def Has (p filter : Properties) : Prop :=
  ∀ e ∈ filter.entries, p.IsFaithfulAt e.1 ∧
    ∃ value, p.get? e.1 = some value ∧ value.toCell.bound.equals e.2.toCell.bound = true

/-- **The database decides a filter as it is meant** where it finds what was stored. -/
theorem matches_iff_has {p filter : Properties} (hkeys : ∀ e ∈ filter.entries, IsPlainKey e.1)
    (h : ∀ e ∈ filter.entries, p.IsFaithfulAt e.1) : p.Matches filter ↔ p.Has filter := by
  refine forall₂_congr fun e he => ?_
  rw [cellAt_eq (hkeys e he) (h e he), and_iff_right (h e he)]
  cases p.get? e.1 with
  | none => simp
  | some value => simp

end Properties

end GraphBase
