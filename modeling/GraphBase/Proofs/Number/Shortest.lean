import GraphBase.Number.Decimal
import GraphBase.Proofs.Number.Rounding

/-!
# The size of the fewest digits

The fewest digits that read back lie in the interval around the number that is written, so they
are at most half a unit larger than the number (`size_shortest_le`).  The search never leaves the
interval: it looks at the neighbours of the number on one grid after the other and takes one that
is inside, and where it gives up it cuts off everything behind the point.
-/

namespace GraphBase.Number

/-- The size of a decimal number. -/
def Decimal.size (d : Decimal) : ℚ := d.digits * 10 ^ d.exponent

theorem cast_tenPow (n : Nat) : (tenPow n : ℚ) = 10 ^ n := Nat.cast_pow 10 n

/-- Moving zeros into the exponent changes nothing. -/
theorem Decimal.size_stripZeros (fuel : Nat) (d : Decimal) : (stripZeros fuel d).size = d.size := by
  induction fuel generalizing d with
  | zero => rfl
  | succ fuel ih =>
    rw [stripZeros]
    split_ifs with h
    · have hten : 10 * (d.digits / 10) = d.digits := Nat.mul_div_cancel' (Nat.dvd_of_mod_eq_zero h.2)
      have hcast : (10 : ℚ) * (d.digits / 10 : Nat) = d.digits := by exact_mod_cast hten
      rw [ih, size, size, zpow_add_one₀ (by norm_num), ← hcast]
      ring
    · rfl

namespace RoundingInterval

variable {i : RoundingInterval} {f : Format} {m num den : Nat} {e step : Int}

/-- The upper end of an interval. -/
def top (i : RoundingInterval) : ℚ := i.high / i.den

theorem around_spec (f : Format) (m : Nat) (e : Int) :
    0 < (around f m e).den ∧ (around f m e).top = (m + 1 / 2) * 2 ^ e ∧
      (around f m e).value ≤ (around f m e).high := by
  cases e with
  | ofNat n =>
    refine ⟨show 0 < 4 by decide, ?_, Nat.mul_le_mul_right _ (by omega)⟩
    show (((4 * m + 2) * twoPow n : Nat) : ℚ) / ((4 : Nat) : ℚ) = (m + 1 / 2) * 2 ^ (n : Int)
    rw [zpow_natCast, Nat.cast_mul, Format.cast_twoPow]
    push_cast
    ring
  | negSucc n =>
    refine ⟨Nat.mul_pos (by decide) (twoPow_pos _), ?_, Nat.le_add_right _ _⟩
    show ((4 * m + 2 : Nat) : ℚ) / ((4 * twoPow (n + 1) : Nat) : ℚ) =
      (m + 1 / 2) * 2 ^ Int.negSucc n
    rw [zpow_negSucc, Nat.cast_mul, Format.cast_twoPow]
    push_cast
    field_simp
    ring

/-- What an interval contains is at most its upper end. -/
theorem le_top_of_contains (hi : 0 < i.den) (hden : 0 < den) (h : i.contains num den = true) :
    (num : ℚ) / den ≤ i.top := by
  have hle : num * i.den ≤ i.high * den := by
    rw [contains] at h
    split_ifs at h <;> simp only [Bool.and_eq_true, decide_eq_true_iff] at h <;> omega
  rw [top, div_le_div_iff₀ (Nat.cast_pos.2 hden) (Nat.cast_pos.2 hi)]
  exact_mod_cast hle

theorem roundDiv_eq_or (n d : Nat) :
    Format.roundDiv n d = n / d ∨ Format.roundDiv n d = if n % d = 0 then n / d else n / d + 1 := by
  rw [Format.roundDiv]
  split_ifs with hup hzero
  · rw [hzero, Bool.or_eq_true, Bool.and_eq_true, beq_iff_eq, beq_iff_eq] at hup
    rcases hup with hup | ⟨rfl, hodd⟩
    · exact absurd (of_decide_eq_true hup) (Nat.not_lt_zero d)
    · rw [Nat.div_zero] at hodd
      cases hodd
  · exact .inr rfl
  · exact .inl rfl
  · exact .inl rfl

/-- Whether a point of a grid is inside. -/
def hasPoint (i : RoundingInterval) (step : Int) (k : Nat) : Bool :=
  match step with
  | .ofNat e => i.contains (k * tenPow e) 1
  | .negSucc e => i.contains k (tenPow (e + 1))

theorem le_top_of_hasPoint (hi : 0 < i.den) {k : Nat} (h : i.hasPoint step k = true) :
    (k : ℚ) * 10 ^ step ≤ i.top := by
  cases step with
  | ofNat e =>
    have hle := le_top_of_contains hi Nat.one_pos h
    rw [Nat.cast_mul, cast_tenPow, Nat.cast_one, div_one] at hle
    rwa [Int.ofNat_eq_natCast, zpow_natCast]
  | negSucc e =>
    have hle : (k : ℚ) / (tenPow (e + 1) : Nat) ≤ i.top :=
      le_top_of_contains hi (Nat.pow_pos (by decide)) h
    rw [cast_tenPow] at hle
    rwa [zpow_negSucc, ← div_eq_mul_inv]

/-- The neighbour that a grid offers is a point inside. -/
theorem exists_of_onGrid? {d : Decimal} (h : i.onGrid? step = some d) :
    ∃ k, d = ⟨k, step⟩ ∧ i.hasPoint step k = true := by
  obtain ⟨n, b, hscale⟩ : ∃ n b, scaleDecimal i.value i.den step = (n, b) := ⟨_, _, rfl⟩
  have hround := roundDiv_eq_or n b
  have hgrid : i.onGrid? step =
      if i.hasPoint step (n / b) && i.hasPoint step (if n % b = 0 then n / b else n / b + 1) then
        some ⟨Format.roundDiv n b, step⟩
      else if i.hasPoint step (n / b) then some ⟨n / b, step⟩
      else if i.hasPoint step (if n % b = 0 then n / b else n / b + 1) then
        some ⟨if n % b = 0 then n / b else n / b + 1, step⟩
      else none := by
    rw [onGrid?, hscale]
    rfl
  rw [hgrid] at h
  generalize (if n % b = 0 then n / b else n / b + 1) = above at h hround
  split_ifs at h with hboth hbelow habove
  · rw [Bool.and_eq_true] at hboth
    rcases hround with hround | hround
    · exact ⟨_, (Option.some.inj h).symm, hround ▸ hboth.1⟩
    · exact ⟨_, (Option.some.inj h).symm, hround ▸ hboth.2⟩
  · exact ⟨_, (Option.some.inj h).symm, hbelow⟩
  · exact ⟨_, (Option.some.inj h).symm, habove⟩

/-- The search stays inside, or cuts off what is behind the point. -/
theorem size_search_le (hi : 0 < i.den) (hvalue : i.value ≤ i.high) (leading : Int)
    (count fuel : Nat) : (i.search leading count fuel).size ≤ i.top := by
  induction fuel generalizing count with
  | zero =>
    have hle : i.value / i.den * i.den ≤ i.high := (Nat.div_mul_le_self _ _).trans hvalue
    rw [search, Decimal.size, zpow_zero, mul_one, top, le_div_iff₀ (Nat.cast_pos.2 hi)]
    exact_mod_cast hle
  | succ fuel ih =>
    rw [search]
    split
    · rename_i d h
      obtain ⟨k, rfl, hk⟩ := exists_of_onGrid? h
      exact le_top_of_hasPoint hi hk
    · exact ih (count + 1)

end RoundingInterval

/-- **The fewest digits that read back are at most half a unit too large.** -/
theorem size_shortest_le (f : Format) (m : Nat) (e : Int) :
    (shortest f m e).size ≤ (m + 1 / 2) * 2 ^ e := by
  rw [shortest]
  split_ifs with h
  · rw [Decimal.size, Nat.cast_zero, zero_mul]
    positivity
  · obtain ⟨hden, htop, hvalue⟩ := RoundingInterval.around_spec f m e
    rw [← htop, Decimal.size_stripZeros]
    exact RoundingInterval.size_search_le hden hvalue _ _ _

end GraphBase.Number
