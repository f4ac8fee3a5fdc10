import GraphBase.Number.Notation
import Mathlib.Algebra.Group.Nat.Defs
import Mathlib.Data.List.Basic

/-!
# Digit strings

`toDigits` writes a natural number and `ofDigits` reads it back.  What is written are digits, no
zero in front of others, and as many as the size of the number asks for.

A reader takes digits as long as there are some, so it matters what stands behind them:
`takeWhile_append` says that nothing but the digits is taken if no digit follows.
-/

namespace GraphBase.Number

variable {n : Nat} {ds rest : List Char}

/-! ## Digits -/

theorem isDigit_of_mem_toDigits {c : Char} (h : c ∈ toDigits n) : isDigit c = true :=
  Nat.isDigit_of_mem_toDigits (by decide) (by decide) h

theorem toDigits_ne_nil (n : Nat) : toDigits n ≠ [] := Nat.toDigits_ne_nil

/-- The value of a digit is less than ten. -/
theorem digitValue_lt {c : Char} (h : isDigit c = true) : digitValue c < 10 := by
  rw [isDigit, Bool.and_eq_true, decide_eq_true_iff, decide_eq_true_iff] at h
  have hle : c.toNat ≤ '9'.toNat := h.2
  show c.toNat - 48 < 10
  have hnine : '9'.toNat = 57 := rfl
  omega

/-- No digit string of a number has a zero in front. -/
theorem head?_toDigits_ne_zero (h : 0 < n) : (toDigits n).head? ≠ some '0' := by
  induction n using Nat.strongRecOn with
  | ind n ih =>
    rcases Nat.lt_or_ge n 10 with hlt | hge
    · rw [toDigits, Nat.toDigits_of_lt_base hlt, List.head?_cons, Ne, Option.some_inj,
        Nat.digitChar_eq_zero]
      exact Nat.ne_of_gt h
    · rw [toDigits, Nat.toDigits_of_base_le (by decide) hge,
        List.head?_append_of_ne_nil _ Nat.toDigits_ne_nil]
      exact ih (n / 10) (by omega) (by omega)

/-! ## Reading digits -/

@[simp] theorem ofDigits_nil : ofDigits [] = 0 := rfl

theorem ofDigits_append (a b : List Char) :
    ofDigits (a ++ b) = 10 ^ b.length * ofDigits a + ofDigits b := by
  have happend : ofDigits (a ++ b) = Nat.ofDigitChars 10 b (Nat.ofDigitChars 10 a 0) :=
    Nat.ofDigitChars_append (b := 10) 0
  rw [happend, Nat.ofDigitChars_eq_ofDigitChars_zero]
  rfl

theorem ofDigits_cons (c : Char) (cs : List Char) :
    ofDigits (c :: cs) = 10 ^ cs.length * digitValue c + ofDigits cs := by
  have hone : ofDigits [c] = digitValue c := by
    show 10 * 0 + digitValue c = digitValue c
    omega
  rw [← hone]
  exact ofDigits_append [c] cs

/-- **Reading a number that was written gives the number.** -/
@[simp] theorem ofDigits_toDigits (n : Nat) : ofDigits (toDigits n) = n :=
  Nat.ofDigitChars_ten_toDigits

/-- Zeros in front count for nothing. -/
theorem ofDigits_zeros_append (k : Nat) (ds : List Char) : ofDigits (zeros k ++ ds) = ofDigits ds := by
  have hzeros : ofDigits (zeros k) = 0 :=
    Nat.ofDigitChars_replicate_zero.trans (Nat.mul_zero (10 ^ k))
  rw [ofDigits_append, hzeros, Nat.mul_zero, Nat.zero_add]

/-- What `k` digits write is less than `10 ^ k`. -/
theorem ofDigits_lt (h : ∀ c ∈ ds, isDigit c = true) : ofDigits ds < 10 ^ ds.length := by
  induction ds with
  | nil => decide
  | cons c ds ih =>
    have hc := digitValue_lt (h c List.mem_cons_self)
    have hds := ih fun d hd => h d (List.mem_cons_of_mem c hd)
    have hmul : 10 ^ ds.length * digitValue c ≤ 10 ^ ds.length * 9 :=
      Nat.mul_le_mul_left _ (by omega)
    rw [ofDigits_cons, List.length_cons, Nat.pow_succ]
    omega

/-- A number has at most `k` digits if it is less than `10 ^ k`. -/
theorem digitCount_le_iff {k : Nat} (hk : 0 < k) : digitCount n ≤ k ↔ n < 10 ^ k :=
  Nat.length_toDigits_le_iff (by decide) hk

theorem digitCount_pos (n : Nat) : 0 < digitCount n := Nat.length_toDigits_pos

/-! ## Taking digits -/

/-- Digits are taken up to the first character that is none. -/
theorem takeWhile_append (hds : ∀ c ∈ ds, isDigit c = true)
    (hrest : ∀ c ∈ rest.head?, isDigit c = false) :
    (ds ++ rest).takeWhile isDigit = ds ∧ (ds ++ rest).dropWhile isDigit = rest := by
  have htake : rest.takeWhile isDigit = [] := by
    cases rest with
    | nil => rfl
    | cons c rest => rw [List.takeWhile_cons, hrest c rfl, if_neg Bool.false_ne_true]
  have hdrop : rest.dropWhile isDigit = rest := by
    cases rest with
    | nil => rfl
    | cons c rest => rw [List.dropWhile_cons, hrest c rfl, if_neg Bool.false_ne_true]
  rw [List.takeWhile_append_of_pos hds, List.dropWhile_append_of_pos hds, htake, hdrop,
    List.append_nil]
  exact ⟨rfl, rfl⟩

end GraphBase.Number
