import GraphBase.Proofs.Value.Equality

/-!
# Two readers of one text

A text of properties that a store keeps has two readers.  The store decodes it when it answers what
is stored, and the database looks into it when it decides a filter.  They share nothing but the
text, and they have to agree for a filter to mean what the answers show.

They agree on every value that is no floating point number (`Scalar.readsAlike_of_notFloat`).  The
digits of a floating point number are rounded by each of them in its own way, and neither always
arrives at the number that was written; so they agree on some of these numbers and not on others.
The database also takes a key that has a NUL for its part in front of that.  Where neither makes a
difference (`Properties.AgreesAt`), a filter is decided on the decoded values
(`Properties.cellAt_equals_iff_decodesAt`).
-/

namespace GraphBase

open GraphBase.Number (Quantity Binary64)
open GraphBase.Json (Numeral cutName)

namespace Scalar

theorem isEqual_iff {x y : Scalar} : x.IsEqual y ↔
    (∃ s, x = .text s ∧ y = .text s) ∨ ∃ v, x.quantity? = some v ∧ y.quantity? = some v := by
  constructor
  · rintro (s | ⟨hx, hy⟩)
    · exact .inl ⟨s, rfl, rfl⟩
    · exact .inr ⟨_, hx, hy⟩
  · rintro (⟨s, rfl, rfl⟩ | ⟨v, hx, hy⟩)
    · exact .text s
    · exact .number hx hy

/-- A floating point number is never read as a text. -/
theorem reread_float_ne_text (x : Binary64) (s : String) : (float x).reread ≠ .text s := by
  have hnumeral : ∀ n : Numeral, (ofNumeral? n).getD null ≠ .text s := by
    intro n
    have hfloat : (n.toBinary64?.map float).getD null ≠ .text s := by
      cases n.toBinary64? with
      | none => exact Scalar.noConfusion
      | some y => exact Scalar.noConfusion
    rw [ofNumeral?]
    split
    · split_ifs
      · exact Scalar.noConfusion
      · exact hfloat
    · exact hfloat
  rw [reread, toJson]
  cases Numeral.ofBinary64? x with
  | none => exact Scalar.noConfusion
  | some n => exact hnumeral n

/-- What the database finds where a floating point number was written is a number or nothing. -/
theorem storedNumber_equals {x : Binary64} {c : Cell} : (storedNumber x).equals c = true ↔
    ∃ v, (storedNumber x).quantity? = some v ∧ c.quantity? = some v := by
  rw [Cell.equals_iff, storedNumber]
  cases Numeral.ofBinary64? x <;> simp

/-- Both readers find the same in the text of a value: the same quantity, if it is a floating point
number. -/
def ReadsAlike (x : Scalar) : Prop :=
  ∀ y, x = .float y → (storedNumber y).quantity? = x.reread.quantity?

theorem readsAlike_of_notFloat {x : Scalar} (h : ∀ y, x ≠ .float y) : x.ReadsAlike :=
  fun y hy => absurd hy (h y)

/-- **A filter is decided on the decoded value**, where both readers find the same. -/
theorem storedCell_equals {x y : Scalar} (h : x.ReadsAlike) :
    x.storedCell.equals y.toCell.bound = true ↔ x.reread.IsEqual y := by
  by_cases hfloat : ∃ z, x = float z
  · obtain ⟨z, rfl⟩ := hfloat
    have htext : ¬∃ s, (float z).reread = .text s ∧ y = .text s :=
      fun ⟨s, hs, _⟩ => reread_float_ne_text z s hs
    rw [storedCell, storedNumber_equals, isEqual_iff, or_iff_right htext, h z rfl,
      Cell.quantity?_bound, quantity?_toCell]
  · rw [not_exists] at hfloat
    rw [storedCell_of_notFloat hfloat, reread_of_notFloat hfloat, equals_bound]

/-- **Nothing less will do**: where the readers find different quantities, they decide some filter
differently. -/
theorem readsAlike_iff {x : Scalar} : x.ReadsAlike ↔
    ∀ y : Scalar, x.storedCell.equals y.toCell.bound = true ↔ x.reread.IsEqual y := by
  refine ⟨fun h y => storedCell_equals h, ?_⟩
  rintro h z rfl
  have hequal : ∀ y, (float z).reread.IsEqual y ↔
      ∃ v, (float z).reread.quantity? = some v ∧ y.quantity? = some v := by
    intro y
    rw [isEqual_iff, or_iff_right]
    exact fun ⟨s, hs, _⟩ => reread_float_ne_text z s hs
  have hcell : ∀ y : Scalar, (storedNumber z).equals y.toCell.bound = true ↔
      ∃ v, (storedNumber z).quantity? = some v ∧ y.quantity? = some v := by
    intro y
    rw [storedNumber_equals, Cell.quantity?_bound, quantity?_toCell]
  have hboth : ∀ y : Scalar, (∃ v, (storedNumber z).quantity? = some v ∧ y.quantity? = some v) ↔
      ∃ v, (float z).reread.quantity? = some v ∧ y.quantity? = some v :=
    fun y => (hcell y).symm.trans ((h y).trans (hequal y))
  -- each reader is asked for what the other one finds
  have hfound : ∀ v, (float z).reread.quantity? = some v → (storedNumber z).quantity? = some v := by
    intro v hv
    obtain ⟨w, hw, hw'⟩ := (hboth _).2 ⟨v, hv, hv⟩
    rw [hw, ← hw', hv]
  cases hstored : (storedNumber z).quantity? with
  | none =>
    cases hread : (float z).reread.quantity? with
    | none => rfl
    | some v => exact absurd (hfound v hread) (by rw [hstored]; nofun)
  | some v =>
    have hreal : ∃ y, storedNumber z = .real y := by
      rw [storedNumber] at hstored ⊢
      cases hz : Numeral.ofBinary64? z with
      | none =>
        rw [hz] at hstored
        cases hstored
      | some n => exact ⟨_, rfl⟩
    obtain ⟨y, hy⟩ := hreal
    have hvalue : (float y).quantity? = some v := by
      rw [← hstored, hy]
      rfl
    obtain ⟨w, hw, hw'⟩ := (hboth (float y)).1 ⟨v, hstored, hvalue⟩
    rw [hw, ← hw', hvalue]

end Scalar

namespace Properties

variable {p : Properties} {key : String} {value : Scalar}

theorem get?_reread (p : Properties) (key : String) :
    p.reread.get? key = (p.get? key).map Scalar.reread := by
  rw [get?, reread, List.find?_map, get?, Option.map_map, Option.map_map]
  rfl

/-- Both readers find the same for a key. -/
structure AgreesAt (p : Properties) (key : String) : Prop where
  name : ∀ e ∈ p.entries, cutName e.1.toList = key.toList → e.1 = key
  value : ∀ x, p.get? key = some x → x.ReadsAlike

/-- They may differ only about keys with a NUL and about floating point numbers. -/
theorem agreesAt_of_forall (hkeys : ∀ e ∈ p.entries, '\x00' ∉ e.1.toList)
    (hvalues : ∀ e ∈ p.entries, e.2.ReadsAlike) (key : String) : p.AgreesAt key := by
  refine ⟨fun e he hcut => ?_, fun x hx => hvalues _ (mem_of_get? hx)⟩
  rw [Json.cutName_eq_self (hkeys e he)] at hcut
  exact String.toList_inj.1 hcut

/-- A text decodes to properties with a value for a key that is equal to the given one. -/
def DecodesAt (text key : String) (value : Scalar) : Prop :=
  ∃ q w, Properties.decode? text = some q ∧ q.get? key = some w ∧ w.IsEqual value

/-- **A filter is decided on the decoded values**, where both readers find the same for its key. -/
theorem cellAt_equals_iff_decodesAt (hkey : IsPlainKey key) (h : p.AgreesAt key) :
    (p.cellAt key).equals value.toCell.bound = true ↔ DecodesAt p.encode key value := by
  have hdecodes : DecodesAt p.encode key value ↔
      ∃ w, p.reread.get? key = some w ∧ w.IsEqual value := by
    rw [DecodesAt, p.decode?_encode]
    simp
  rw [hdecodes, cellAt_of_name hkey h.name, get?_reread]
  cases hx : p.get? key with
  | none => simp
  | some x => simp [Scalar.storedCell_equals (h.value x hx)]

/-- On `1e126` the two readers do not agree: the decoder finds the number that was written. -/
example : (Scalar.float ⟨0x5a17a2ecc414a03f⟩).reread = .float ⟨0x5a17a2ecc414a03f⟩ ∧
    storedNumber ⟨0x5a17a2ecc414a03f⟩ = .real ⟨0x5a17a2ecc414a040⟩ := by decide +kernel

end Properties

end GraphBase
