/-!
# Powers of two and ten

Binary formats are scaled by powers of two and decimal notations by powers of ten, always
of natural numbers and always exactly.
-/

namespace GraphBase.Number

/-- A power of two. -/
def twoPow (n : Nat) : Nat := Nat.pow 2 n

/-- A power of ten. -/
def tenPow (n : Nat) : Nat := Nat.pow 10 n

@[simp] theorem twoPow_zero : twoPow 0 = 1 := rfl

@[simp] theorem tenPow_zero : tenPow 0 = 1 := rfl

theorem twoPow_pos (n : Nat) : 0 < twoPow n := Nat.pow_pos (by decide)

end GraphBase.Number
