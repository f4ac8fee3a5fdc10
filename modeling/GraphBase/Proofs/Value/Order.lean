import GraphBase.Proofs.Value.Equality
import Mathlib.Data.Rat.Cast.Order
import Mathlib.Order.Compare
import Mathlib.Order.WithBot

/-!
# In which order numbers come

Two patterns are compared exactly, by shifting one of them until both are integers.  So they come
in the order of the quantities that they stand for (`Binary64.compare?_eq_some`), on the line of the
rationals with an infinity at each end (`Quantity.place`).  What is not a number has no place there,
and is before nothing and behind nothing.
-/

namespace GraphBase.Number

/-- Where a quantity lies on the line of the rationals with its two ends. -/
def Quantity.place : Quantity → WithBot (WithTop ℚ)
  | infinite true => ⊥
  | infinite false => ⊤
  | finite q => (q : WithTop ℚ)

namespace Format.Unpacked

variable {x y : Format.Unpacked}

/-- Integers of the same exponent come in the order of the quantities. -/
theorem compare_place_finite (i j e : Int) :
    compare (Quantity.finite (i * 2 ^ e)).place (Quantity.finite (j * 2 ^ e)).place =
      compare i j := by
  have hmono : StrictMono fun i : Int => (Quantity.finite (i * 2 ^ e)).place := by
    intro i j hij
    have hlt : (i : ℚ) * 2 ^ e < j * 2 ^ e :=
      mul_lt_mul_of_pos_right (Int.cast_lt.2 hij) (zpow_pos two_pos e)
    exact WithBot.coe_lt_coe.2 (WithTop.coe_lt_coe.2 hlt)
  have hcmp := hmono.cmp_map_eq i j
  rwa [cmp_eq_compare, cmp_eq_compare] at hcmp

/-- All rationals lie between the two infinities. -/
theorem place_finite_lt (q : ℚ) : (Quantity.finite q).place < (Quantity.infinite false).place :=
  WithBot.coe_lt_coe.2 (WithTop.coe_lt_top q)

theorem lt_place_finite (q : ℚ) : (Quantity.infinite true).place < (Quantity.finite q).place :=
  WithBot.bot_lt_coe _

/-- **Two patterns are compared** as the quantities that they stand for. -/
theorem compare?_eq_some {o : Ordering} : x.compare? y = some o ↔
    ∃ v w, x.quantity? = some v ∧ y.quantity? = some w ∧ compare v.place w.place = o := by
  have hends : (Quantity.infinite true).place < (Quantity.infinite false).place := bot_lt_top
  cases x with
  | nan => simp [compare?, quantity?]
  | infinite a =>
    cases y with
    | nan => simp [compare?, quantity?]
    | infinite b =>
      cases a <;> cases b <;>
        simp [compare?, quantity?, compare_lt_iff_lt.2 hends, compare_gt_iff_gt.2 hends]
    | finite b n d =>
      cases a <;>
        simp [compare?, quantity?, compare_gt_iff_gt.2 (place_finite_lt _),
          compare_lt_iff_lt.2 (lt_place_finite _)]
  | finite a m e =>
    cases y with
    | nan => simp [compare?, quantity?]
    | infinite b =>
      cases b <;>
        simp [compare?, quantity?, compare_lt_iff_lt.2 (place_finite_lt _),
          compare_gt_iff_gt.2 (lt_place_finite _)]
    | finite b n d =>
      simp only [compare?, quantity?, Option.some.injEq, exists_and_left, exists_eq_left']
      rw [← Binary64.cast_shift (min_le_left e d), ← Binary64.cast_shift (min_le_right e d),
        compare_place_finite]

/-- Where a pattern lies, unless it is no number. -/
def place? (x : Format.Unpacked) : Option (WithBot (WithTop ℚ)) := x.quantity?.map Quantity.place

theorem exists_place (h : x ≠ .nan) : ∃ v, x.place? = some v := by
  cases x with
  | nan => exact absurd rfl h
  | infinite negative => exact ⟨_, rfl⟩
  | finite negative m e => exact ⟨_, rfl⟩

/-- **Patterns that are numbers** are compared as their places. -/
theorem compare?_of_place {v w : WithBot (WithTop ℚ)} (hv : x.place? = some v)
    (hw : y.place? = some w) : x.compare? y = some (compare v w) := by
  obtain ⟨a, ha, rfl⟩ := Option.map_eq_some_iff.1 hv
  obtain ⟨b, hb, rfl⟩ := Option.map_eq_some_iff.1 hw
  exact compare?_eq_some.2 ⟨a, b, ha, hb, rfl⟩

end Format.Unpacked

/-- Where a number of double precision lies, unless it is none. -/
def Binary64.place? (x : Binary64) : Option (WithBot (WithTop ℚ)) := x.unpack.place?

/-- Where a number of single precision lies, unless it is none. -/
def Binary32.place? (x : Binary32) : Option (WithBot (WithTop ℚ)) := x.unpack.place?

theorem Binary64.exists_place {x : Binary64} (h : x.isNaN = false) : ∃ v, x.place? = some v :=
  Format.Unpacked.exists_place fun hnan => by rw [isNaN, hnan] at h; cases h

end GraphBase.Number
