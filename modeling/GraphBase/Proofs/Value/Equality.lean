import GraphBase.Proofs.Number.Rounding
import GraphBase.Proofs.Value.Matching

/-!
# When a filter takes two values for equal

A filter compares cells (`Cell.equals`).  Numbers are compared exactly, an integer with a floating
point number as well, by shifting one of them until both are integers.  So two values are equal if
they are the same text or stand for the same quantity (`Scalar.equals_bound`), where a truth value
stands for zero or one, and what is not a number stands for nothing.
-/

namespace GraphBase

namespace Number

/-- What a number may stand for: a rational, or something beyond all rationals. -/
inductive Quantity where
  | infinite (negative : Bool)
  | finite (q : ℚ)

/-- What a pattern stands for, unless it is no number. -/
def Format.Unpacked.quantity? : Format.Unpacked → Option Quantity
  | nan => none
  | infinite negative => some (.infinite negative)
  | finite negative m e => some (.finite (if negative then -(m * 2 ^ e) else m * 2 ^ e))

namespace Binary64

variable {x y : Binary64} {i : Int}

/-- A significand that has been shifted to a smaller exponent stands for the same quantity. -/
theorem cast_shift {least e : Int} (h : least ≤ e) (negative : Bool) (m : Nat) :
    ((if negative then -((m : Int) * twoPow (e - least).toNat)
        else (m : Int) * twoPow (e - least).toNat : Int) : ℚ) * 2 ^ least =
      if negative then -((m : ℚ) * 2 ^ e) else m * 2 ^ e := by
  have hsplit : (2 : ℚ) ^ e = twoPow (e - least).toNat * 2 ^ least := by
    rw [Format.cast_twoPow, ← zpow_natCast, Int.toNat_of_nonneg (Int.sub_nonneg.2 h),
      ← zpow_add₀ two_ne_zero, Int.sub_add_cancel]
  rw [hsplit]
  cases negative
  · simp [mul_assoc]
  · simp [mul_assoc]

/-- **Two patterns are equal** if both are numbers, and the same one. -/
theorem compare?_eq_eq : x.compare? y = some .eq ↔
    ∃ v, x.unpack.quantity? = some v ∧ y.unpack.quantity? = some v := by
  rw [compare?, Format.Unpacked.compare?.eq_def]
  cases x.unpack with
  | nan => simp [Format.Unpacked.quantity?]
  | infinite a =>
    cases y.unpack with
    | nan => simp [Format.Unpacked.quantity?]
    | infinite b => cases a <;> cases b <;> simp [Format.Unpacked.quantity?]
    | finite b n d => cases a <;> simp [Format.Unpacked.quantity?]
  | finite a m e =>
    cases y.unpack with
    | nan => simp [Format.Unpacked.quantity?]
    | infinite b => cases b <;> simp [Format.Unpacked.quantity?]
    | finite b n d =>
      have hne : (2 : ℚ) ^ min e d ≠ 0 := zpow_ne_zero _ two_ne_zero
      simp only [Format.Unpacked.quantity?, Option.some.injEq, compare_eq_iff_eq,
        exists_eq_left', Quantity.finite.injEq]
      rw [← cast_shift (min_le_left e d), ← cast_shift (min_le_right e d),
        mul_left_inj' hne, Int.cast_inj, eq_comm]

/-- **A pattern is equal to an integer** if it stands for it. -/
theorem compareInt?_eq_eq :
    x.compareInt? i = some .eq ↔ x.unpack.quantity? = some (.finite i) := by
  rw [compareInt?]
  cases x.unpack with
  | nan => simp [Format.Unpacked.quantity?]
  | infinite a => cases a <;> simp [Format.Unpacked.quantity?]
  | finite a m e =>
    simp only [Format.Unpacked.quantity?, Option.some.injEq, Quantity.finite.injEq]
    cases e with
    | ofNat n =>
      rw [Option.some.injEq, compare_eq_iff_eq, ← Int.cast_inj (α := ℚ)]
      refine Eq.congr_left ?_
      show _ = if a then -((m : ℚ) * 2 ^ (n : Int)) else m * 2 ^ (n : Int)
      rw [zpow_natCast]
      cases a <;> simp [Format.cast_twoPow]
    | negSucc n =>
      have hne : (2 : ℚ) ^ (n + 1) ≠ 0 := pow_ne_zero _ two_ne_zero
      rw [Option.some.injEq, compare_eq_iff_eq, ← Int.cast_inj (α := ℚ), zpow_negSucc]
      cases a
      · simp [Format.cast_twoPow, mul_inv_eq_iff_eq_mul₀ hne]
      · simp [Format.cast_twoPow, ← neg_mul, mul_inv_eq_iff_eq_mul₀ hne]

theorem isNaN_iff : x.isNaN = true ↔ x.unpack.quantity? = none := by
  rw [isNaN, beq_iff_eq]
  cases x.unpack <;> simp [Format.Unpacked.quantity?]

end Binary64

end Number

open GraphBase.Number (Quantity Binary64)

namespace Cell

/-- The quantity in a cell. -/
def quantity? : Cell → Option Quantity
  | integer i => some (.finite i.toInt)
  | real x => x.unpack.quantity?
  | _ => none

/-- **Two cells are equal** if they hold the same text, the same bytes or the same quantity. -/
theorem equals_iff {a b : Cell} : a.equals b = true ↔
    (∃ s, a = text s ∧ b = text s) ∨ (∃ bytes, a = blob bytes ∧ b = blob bytes) ∨
      ∃ v, a.quantity? = some v ∧ b.quantity? = some v := by
  cases a with
  | null => simp [quantity?]
  | text s =>
    cases b with
    | text t => simp [equals, quantity?, eq_comm (a := t)]
    | _ => simp [equals, quantity?]
  | blob bytes =>
    cases b with
    | blob bytes' => simp [equals, quantity?, eq_comm (a := bytes')]
    | _ => simp [equals, quantity?]
  | integer i =>
    cases b with
    | integer j => simp [equals, quantity?, Int64.toInt_inj, eq_comm (a := j)]
    | real y => simp [equals, quantity?, Binary64.compareInt?_eq_eq]
    | _ => simp [equals, quantity?]
  | real x =>
    cases b with
    | integer j => simp [equals, quantity?, Binary64.compareInt?_eq_eq]
    | real y => simp [equals, quantity?, Binary64.compare?_eq_eq]
    | _ => simp [equals, quantity?]

/-- What is not a number has no quantity anyway. -/
theorem quantity?_bound (c : Cell) : c.bound.quantity? = c.quantity? := by
  cases c with
  | real x =>
    rw [bound]
    split_ifs with hnan
    · exact (Binary64.isNaN_iff.1 hnan).symm
    · rfl
  | _ => rfl

theorem bound_eq_text {c : Cell} {s : String} : c.bound = text s ↔ c = text s := by
  cases c with
  | real x =>
    rw [bound]
    split_ifs <;> simp
  | _ => rfl

end Cell

namespace Scalar

/-- The quantity of a value: truth values are zero and one. -/
def quantity? : Scalar → Option Quantity
  | bool b => some (.finite (if b then 1 else 0))
  | int i => some (.finite i.toInt)
  | float x => x.unpack.quantity?
  | _ => none

/-- Two values are equal if they are the same text or have the same quantity.  So nothing is equal
to null, nor to what is not a number. -/
inductive IsEqual : Scalar → Scalar → Prop
  | text (s : String) : IsEqual (.text s) (.text s)
  | number {x y : Scalar} {v : Quantity} (hx : x.quantity? = some v) (hy : y.quantity? = some v) :
    IsEqual x y

theorem quantity?_toCell (x : Scalar) : x.toCell.quantity? = x.quantity? := by
  cases x with
  | bool b => cases b <;> rfl
  | _ => rfl

theorem toCell_eq_text {x : Scalar} {s : String} : x.toCell = .text s ↔ x = .text s := by
  cases x <;> simp [toCell]

theorem toCell_bound_ne_blob (x : Scalar) (bytes : List UInt8) : x.toCell.bound ≠ .blob bytes := by
  cases x with
  | float x =>
    rw [toCell, Cell.bound]
    split_ifs <;> simp
  | _ => simp [toCell, Cell.bound]

/-- **A filter takes two values for equal** if they are. -/
theorem equals_bound {x y : Scalar} :
    x.toCell.bound.equals y.toCell.bound = true ↔ x.IsEqual y := by
  rw [Cell.equals_iff]
  simp only [Cell.quantity?_bound, quantity?_toCell, Cell.bound_eq_text, toCell_eq_text]
  constructor
  · rintro (⟨s, rfl, rfl⟩ | ⟨bytes, hblob, -⟩ | ⟨v, hx, hy⟩)
    · exact .text s
    · exact absurd hblob (toCell_bound_ne_blob x bytes)
    · exact .number hx hy
  · rintro (s | ⟨hx, hy⟩)
    · exact .inl ⟨s, rfl, rfl⟩
    · exact .inr (.inr ⟨_, hx, hy⟩)

end Scalar

end GraphBase
