import GraphBase.Number.Binary
import Mathlib.Algebra.Order.Field.Power
import Mathlib.Data.Rat.Defs
import Mathlib.Tactic.FieldSimp
import Mathlib.Tactic.Linarith
import Mathlib.Tactic.NormNum
import Mathlib.Tactic.Positivity
import Mathlib.Tactic.Ring

/-!
# What rounding does to a number

A format has `P = 2 ^ fractionBits` patterns for each exponent.  A positive rational is rounded at
an exponent `e` at which it is less than `2 * P` units of `2 ^ e`, and at least `P` of them unless
`e` is the least exponent of the format (`roundingExponent_spec`).  So the pattern is at most half
a unit away (`exists_roundMagnitude`), which is at most one part in `2 * P` where the exponent is
not the least one.

For double precision this gives the two facts that are used of it: a rational becomes infinite
only if it is at least half a unit above the largest number (`isInfinite_ofRatio_eq_false`), and
rounding up does not go far (`size_ofRatio_le`).  For single precision it is enough that no number
is rounded to a NaN (`Binary32.unpack_ofBinary64_ne_nan`).
-/

namespace GraphBase.Number

/-- The size of a number that is finite. -/
def Format.Unpacked.size : Format.Unpacked → ℚ
  | .finite _ m e => m * 2 ^ e
  | _ => 0

theorem Format.Unpacked.size_nonneg (u : Format.Unpacked) : 0 ≤ u.size := by
  cases u with
  | finite negative m e => exact mul_nonneg (Nat.cast_nonneg m) (zpow_nonneg (by norm_num) e)
  | _ => exact le_rfl

namespace Format

variable {f : Format} {num den n d k : Nat}

/-! ## Scaling and dividing -/

theorem cast_twoPow (n : Nat) : (twoPow n : ℚ) = 2 ^ n := Nat.cast_pow 2 n

/-- Scaling divides by a power of two. -/
theorem scaleDown_spec (num : Nat) (hden : 0 < den) (e : Int) :
    0 < (scaleDown num den e).2 ∧
      ((scaleDown num den e).1 : ℚ) / (scaleDown num den e).2 = num / den / 2 ^ e := by
  have hpos : (0 : ℚ) < den := Nat.cast_pos.2 hden
  cases e with
  | ofNat n =>
    refine ⟨Nat.mul_pos hden (twoPow_pos n), ?_⟩
    show (num : ℚ) / ((den * twoPow n : Nat) : ℚ) = num / den / 2 ^ (n : Int)
    rw [Nat.cast_mul, cast_twoPow, zpow_natCast, div_div]
  | negSucc n =>
    refine ⟨hden, ?_⟩
    show ((num * twoPow (n + 1) : Nat) : ℚ) / den = num / den / 2 ^ Int.negSucc n
    rw [Nat.cast_mul, cast_twoPow, zpow_negSucc, div_inv_eq_mul]
    ring

theorem le_div_iff_scaleDown (hden : 0 < den) (e : Int) (k : Nat) :
    k ≤ (scaleDown num den e).1 / (scaleDown num den e).2 ↔ (k : ℚ) ≤ num / den / 2 ^ e := by
  obtain ⟨hpos, heq⟩ := scaleDown_spec num hden e
  rw [← heq, Nat.le_div_iff_mul_le hpos, le_div_iff₀ (Nat.cast_pos.2 hpos)]
  exact_mod_cast Iff.rfl

/-- Rounding to an integer moves by at most a half. -/
theorem roundDiv_le (hd : 0 < d) : (roundDiv n d : ℚ) ≤ n / d + 1 / 2 := by
  have hpos : (0 : ℚ) < d := Nat.cast_pos.2 hd
  have hdiv : (n : ℚ) = d * (n / d : Nat) + (n % d : Nat) := by
    exact_mod_cast (Nat.div_add_mod n d).symm
  have hquot : (n : ℚ) / d = (n / d : Nat) + (n % d : Nat) / d := by
    rw [div_eq_iff hpos.ne', add_mul, div_mul_cancel₀ _ hpos.ne', mul_comm, ← hdiv]
  have hrem : (0 : ℚ) ≤ (n % d : Nat) / d := by positivity
  rw [hquot, roundDiv]
  split_ifs with hup
  · have hhalf : d ≤ 2 * (n % d) := by
      rw [Bool.or_eq_true, Bool.and_eq_true, decide_eq_true_iff, beq_iff_eq] at hup
      omega
    have hhalf' : (1 : ℚ) / 2 ≤ (n % d : Nat) / d := by
      rw [div_le_div_iff₀ (by norm_num) hpos]
      have hcast : (d : ℚ) ≤ 2 * (n % d : Nat) := by exact_mod_cast hhalf
      linarith
    push_cast
    linarith
  · linarith

theorem roundDiv_le_of_div_lt (h : n / d < k) : roundDiv n d ≤ k := by
  rw [roundDiv]
  split_ifs <;> omega

theorem le_roundDiv_of_le_div (h : k ≤ n / d) : k ≤ roundDiv n d := by
  rw [roundDiv]
  split_ifs <;> omega

/-! ## The exponent of rounding -/

/-- The binary logarithms of numerator and denominator tell the size of a quotient. -/
theorem div_lt_zpow (hnum : 0 < num) (hden : 0 < den) :
    (num : ℚ) / den < 2 ^ ((num.log2 : Int) - den.log2 + 1) ∧
      (2 : ℚ) ^ ((num.log2 : Int) - den.log2 - 1) < num / den := by
  have hpos : (0 : ℚ) < den := Nat.cast_pos.2 hden
  have hnumlt : (num : ℚ) < 2 ^ ((num.log2 : Int) + 1) := by
    exact_mod_cast Nat.lt_log2_self (n := num)
  have hnumle : (2 : ℚ) ^ (num.log2 : Int) ≤ num := by
    exact_mod_cast Nat.log2_self_le hnum.ne'
  have hdenlt : (den : ℚ) < 2 ^ ((den.log2 : Int) + 1) := by
    exact_mod_cast Nat.lt_log2_self (n := den)
  have hdenle : (2 : ℚ) ^ (den.log2 : Int) ≤ den := by
    exact_mod_cast Nat.log2_self_le hden.ne'
  have htwo : (2 : ℚ) ≠ 0 := by norm_num
  constructor
  · rw [div_lt_iff₀ hpos]
    calc (num : ℚ) < 2 ^ ((num.log2 : Int) + 1) := hnumlt
      _ = 2 ^ ((num.log2 : Int) - den.log2 + 1) * 2 ^ (den.log2 : Int) := by
        rw [← zpow_add₀ htwo]
        congr 1
        omega
      _ ≤ 2 ^ ((num.log2 : Int) - den.log2 + 1) * den :=
        mul_le_mul_of_nonneg_left hdenle (by positivity)
  · rw [lt_div_iff₀ hpos]
    calc (2 : ℚ) ^ ((num.log2 : Int) - den.log2 - 1) * den
        < 2 ^ ((num.log2 : Int) - den.log2 - 1) * 2 ^ ((den.log2 : Int) + 1) :=
          mul_lt_mul_of_pos_left hdenlt (by positivity)
      _ = 2 ^ (num.log2 : Int) := by
        rw [← zpow_add₀ htwo]
        congr 1
        omega
      _ ≤ num := hnumle

/-- **The exponent of rounding** leaves the right number of bits before the point, unless it is
the least one. -/
theorem roundingExponent_spec (f : Format) (hnum : 0 < num) (hden : 0 < den) :
    f.leastExponent ≤ f.roundingExponent num den ∧
      (num : ℚ) / den / 2 ^ f.roundingExponent num den < 2 ^ (f.fractionBits + 1) ∧
      (f.roundingExponent num den = f.leastExponent ∨
        (2 : ℚ) ^ f.fractionBits ≤ num / den / 2 ^ f.roundingExponent num den) := by
  obtain ⟨hlt, hgt⟩ := div_lt_zpow hnum hden
  have htwo : (2 : ℚ) ≠ 0 := by norm_num
  rw [roundingExponent]
  generalize hguess : max ((num.log2 : Int) - den.log2 - (f.fractionBits + 1)) f.leastExponent =
    guess
  have hleast : f.leastExponent ≤ guess := by omega
  have hle : (num.log2 : Int) - den.log2 - (f.fractionBits + 1) ≤ guess := by omega
  have htest : twoPow (f.fractionBits + 1) ≤
      (scaleDown num den guess).1 / (scaleDown num den guess).2 ↔
        (2 : ℚ) ^ (f.fractionBits + 1) ≤ num / den / 2 ^ guess := by
    rw [le_div_iff_scaleDown hden, cast_twoPow]
  simp only
  split_ifs with htop
  · have htop := htest.1 htop
    have hhalf : (num : ℚ) / den / 2 ^ (guess + 1) = num / den / 2 ^ guess / 2 := by
      rw [zpow_add_one₀ htwo, div_div (num / den : ℚ)]
    refine ⟨by omega, ?_, .inr ?_⟩
    · rw [div_lt_iff₀ (by positivity)]
      refine hlt.trans_le ?_
      rw [← zpow_natCast, ← zpow_add₀ htwo]
      exact zpow_le_zpow_right₀ (by norm_num) (by push_cast; omega)
    · rw [hhalf, le_div_iff₀ (by norm_num), ← pow_succ]
      exact htop
  · refine ⟨hleast, lt_of_not_ge (mt htest.2 htop), ?_⟩
    rcases eq_or_ne guess f.leastExponent with heq | hne
    · exact .inl heq
    · refine .inr ?_
      have hguess' : guess = (num.log2 : Int) - den.log2 - (f.fractionBits + 1) := by omega
      rw [le_div_iff₀ (by positivity), ← zpow_natCast, ← zpow_add₀ htwo, hguess']
      refine le_trans (le_of_eq ?_) hgt.le
      congr 1
      omega

/-! ## Patterns -/

theorem infinity_eq (f : Format) : f.infinity = f.topExponent * 2 ^ f.fractionBits :=
  Nat.shiftLeft_eq _ _

/-- A pattern below infinity is finite, and what its two fields say. -/
theorem unpack_of_lt_infinity {bits : Nat} (h : bits < f.infinity) :
    f.unpack bits =
      if bits / 2 ^ f.fractionBits = 0 then
        .finite (decide (f.signBit ≤ bits)) (bits % 2 ^ f.fractionBits) f.leastExponent
      else
        .finite (decide (f.signBit ≤ bits)) (2 ^ f.fractionBits + bits % 2 ^ f.fractionBits)
          (f.leastExponent + (bits / 2 ^ f.fractionBits : Nat) - 1) := by
  have hlt : bits / 2 ^ f.fractionBits < f.topExponent := by
    rw [infinity_eq] at h
    exact Nat.div_lt_of_lt_mul (by rwa [Nat.mul_comm])
  have htop : f.topExponent < twoPow f.exponentBits :=
    Nat.sub_lt (twoPow_pos f.exponentBits) Nat.one_pos
  have hbiased : bits / twoPow f.fractionBits % twoPow f.exponentBits =
      bits / 2 ^ f.fractionBits := Nat.mod_eq_of_lt (hlt.trans htop)
  rw [unpack]
  simp only [hbiased]
  rw [if_neg hlt.ne]
  rfl

/-- Nothing up to infinity is a NaN, with either sign. -/
theorem unpack_withSign_ne_nan {magnitude : Nat} (h : magnitude ≤ f.infinity) (negative : Bool) :
    f.unpack (f.withSign negative magnitude) ≠ .nan := by
  have hpos : 0 < 2 ^ f.fractionBits := Nat.pow_pos Nat.two_pos
  obtain ⟨i, hi⟩ : ∃ i, f.withSign negative magnitude =
      magnitude + i * 2 ^ f.exponentBits * 2 ^ f.fractionBits := by
    cases negative
    · exact ⟨0, by simp [withSign]⟩
    · exact ⟨1, by simp [withSign, signBit, twoPow, pow_add, Nat.mul_comm, Nat.add_comm]⟩
  have hfraction : f.withSign negative magnitude % twoPow f.fractionBits =
      magnitude % 2 ^ f.fractionBits := by
    rw [hi]
    exact Nat.add_mul_mod_self_right _ _ _
  have hbiased : f.withSign negative magnitude / twoPow f.fractionBits % twoPow f.exponentBits =
      magnitude / 2 ^ f.fractionBits % 2 ^ f.exponentBits := by
    show f.withSign negative magnitude / 2 ^ f.fractionBits % 2 ^ f.exponentBits = _
    rw [hi, Nat.add_mul_div_right _ _ hpos, Nat.add_mul_mod_self_right]
  rw [unpack]
  simp only [hfraction, hbiased]
  split_ifs with htop hzero
  · exact Unpacked.noConfusion
  · -- the exponent of infinity leaves no room for a fraction
    rw [infinity_eq] at h
    have hle : f.topExponent * 2 ^ f.fractionBits ≤ magnitude :=
      (Nat.le_div_iff_mul_le hpos).1 (htop ▸ Nat.mod_le _ _)
    rw [Nat.le_antisymm h hle, Nat.mul_mod_left] at hzero
    exact absurd rfl hzero
  · exact Unpacked.noConfusion
  · exact Unpacked.noConfusion

/-- **A pattern that is put together from a significand and an exponent stands for them**, also
if the significand is one too large for its field. -/
theorem size_unpack_add {sig : Nat} (hsig : sig ≤ 2 * 2 ^ f.fractionBits)
    (hk : k = 0 ∨ 2 ^ f.fractionBits ≤ sig) (h : k * 2 ^ f.fractionBits + sig < f.infinity) :
    (f.unpack (k * 2 ^ f.fractionBits + sig)).size = sig * 2 ^ (f.leastExponent + k) := by
  have htwo : (2 : ℚ) ≠ 0 := by norm_num
  have hpos : 0 < 2 ^ f.fractionBits := Nat.pow_pos Nat.two_pos
  rw [unpack_of_lt_infinity h]
  rcases Nat.lt_or_ge sig (2 ^ f.fractionBits) with hlow | hge
  · obtain rfl := hk.resolve_right (Nat.not_le_of_lt hlow)
    rw [Nat.zero_mul, Nat.zero_add, if_pos (Nat.div_eq_of_lt hlow), Nat.mod_eq_of_lt hlow]
    simp only [Format.Unpacked.size, Nat.cast_zero, add_zero]
  · obtain ⟨r, rfl⟩ := Nat.exists_eq_add_of_le hge
    have hbits : k * 2 ^ f.fractionBits + (2 ^ f.fractionBits + r) =
        r + (k + 1) * 2 ^ f.fractionBits := by ring
    rw [hbits, Nat.add_mul_div_right _ _ hpos, Nat.add_mul_mod_self_right]
    rcases Nat.lt_or_ge r (2 ^ f.fractionBits) with hr | hr
    · rw [Nat.div_eq_of_lt hr, Nat.mod_eq_of_lt hr, Nat.zero_add, if_neg (Nat.succ_ne_zero k)]
      simp only [Format.Unpacked.size]
      congr 2
      push_cast
      ring
    · obtain rfl : r = 2 ^ f.fractionBits := by omega
      rw [Nat.div_self hpos, Nat.mod_self, if_neg (by omega)]
      simp only [Format.Unpacked.size]
      have hexp : f.leastExponent + ((1 + (k + 1) : Nat) : Int) - 1 = f.leastExponent + k + 1 := by
        push_cast
        ring
      rw [hexp, zpow_add_one₀ htwo]
      push_cast
      ring

theorem roundMagnitude_le_infinity (f : Format) (num den : Nat) :
    f.roundMagnitude num den ≤ f.infinity := by
  rw [roundMagnitude]
  split_ifs
  · exact Nat.zero_le _
  · exact Nat.min_le_right _ _

/-- **Rounding finds a pattern that is at most half a unit away**, if there are patterns of that
size. -/
theorem exists_roundMagnitude (f : Format) (hnum : 0 < num) (hden : 0 < den) :
    ∃ k sig : Nat, f.roundMagnitude num den = min (k * 2 ^ f.fractionBits + sig) f.infinity ∧
      sig ≤ 2 * 2 ^ f.fractionBits ∧ (k = 0 ∨ 2 ^ f.fractionBits ≤ sig) ∧
      (sig : ℚ) ≤ num / den / 2 ^ (f.leastExponent + k) + 1 / 2 ∧
      (k = 0 ∨ (2 : ℚ) ^ f.fractionBits ≤ num / den / 2 ^ (f.leastExponent + k)) := by
  obtain ⟨hleast, hlt, hge⟩ := f.roundingExponent_spec hnum hden
  obtain ⟨k, hk⟩ := Int.eq_ofNat_of_zero_le (Int.sub_nonneg.2 hleast)
  have he : f.roundingExponent num den = f.leastExponent + k := by omega
  rw [he] at hlt hge
  obtain ⟨hpos, heq⟩ := scaleDown_spec num hden (f.leastExponent + k)
  have hge' : k = 0 ∨ (2 : ℚ) ^ f.fractionBits ≤ num / den / 2 ^ (f.leastExponent + k) :=
    hge.imp (fun h => by omega) id
  refine ⟨k, roundDiv (scaleDown num den (f.leastExponent + k)).1
    (scaleDown num den (f.leastExponent + k)).2, ?_, ?_, ?_, ?_, hge'⟩
  · rw [roundMagnitude, if_neg (by simp [hnum.ne', hden.ne'])]
    simp only [he]
    rw [Nat.shiftLeft_eq]
    congr 3
    omega
  · refine roundDiv_le_of_div_lt (lt_of_not_ge fun hle => ?_)
    have hle := (le_div_iff_scaleDown hden _ _).1 hle
    push_cast at hle
    rw [pow_succ] at hlt
    linarith
  · refine hge'.imp id fun h => le_roundDiv_of_le_div ?_
    rw [le_div_iff_scaleDown hden]
    exact_mod_cast h
  · rw [← heq]
    exact roundDiv_le hpos

end Format

/-! ## Double precision -/

namespace Binary64

variable {num den : Nat} {x y : Binary64}

/-- The size of a number; nothing for one that is not finite. -/
def size (x : Binary64) : ℚ := x.unpack.size

theorem size_nonneg (x : Binary64) : 0 ≤ x.size := x.unpack.size_nonneg

theorem toNat_bits_ofRatio (num den : Nat) :
    (ofRatio false num den).bits.toNat = binary64.roundMagnitude num den := by
  have htop : binary64.infinity < UInt64.size := by decide +kernel
  exact Nat.mod_eq_of_lt ((binary64.roundMagnitude_le_infinity num den).trans_lt htop)

/-- A number is finite if its pattern is below that of infinity. -/
theorem isInfinite_eq_false_of_lt (h : x.bits.toNat < binary64.infinity) :
    x.isInfinite = false := by
  rw [isInfinite, unpack, Format.unpack_of_lt_infinity h]
  split_ifs <;> rfl

theorem isInfinite_zero : (ofRatio false 0 den).isInfinite = false := by
  refine isInfinite_eq_false_of_lt ?_
  rw [toNat_bits_ofRatio, Format.roundMagnitude, if_pos (by simp)]
  decide +kernel

/-- **Nothing becomes infinite below the middle between the largest number and the next power of
two.** -/
theorem isInfinite_ofRatio_eq_false (hden : 0 < den)
    (h : (num : ℚ) / den < (2 ^ 53 - 1 / 2) * 2 ^ (971 : Int)) :
    (ofRatio false num den).isInfinite = false := by
  rcases Nat.eq_zero_or_pos num with rfl | hnum
  · exact isInfinite_zero
  refine isInfinite_eq_false_of_lt ?_
  obtain ⟨k, sig, heq, hsig, -, hnear, hunit⟩ := binary64.exists_roundMagnitude hnum hden
  have hfraction : binary64.fractionBits = 52 := rfl
  have hleast : binary64.leastExponent = -1074 := rfl
  have htop : binary64.infinity = 2047 * 2 ^ 52 := rfl
  rw [hfraction] at hsig hunit heq
  rw [hleast] at hnear hunit
  rw [toNat_bits_ofRatio, heq, htop]
  by_contra hge
  have hge : 2047 * 2 ^ 52 ≤ k * 2 ^ 52 + sig := by omega
  have hk : 2045 ≤ k := by omega
  have hpos : (0 : ℚ) < 2 ^ ((-1074 : Int) + k) := by positivity
  have hunitpos : (0 : ℚ) < 2 ^ (971 : Int) := zpow_pos (by norm_num) _
  rcases Nat.lt_or_ge k 2046 with hlt | hlarge
  · obtain rfl : k = 2045 := by omega
    obtain rfl : sig = 2 ^ 53 := by omega
    have hexp : ((-1074 : Int) + (2045 : Nat)) = 971 := by norm_num
    rw [hexp, ← sub_le_iff_le_add, le_div_iff₀ hunitpos] at hnear
    exact absurd (h.trans_le' (by exact_mod_cast hnear)) (lt_irrefl _)
  · have hunit := hunit.resolve_left (by omega)
    rw [le_div_iff₀ hpos] at hunit
    have hpow : (2 : ℚ) ^ (971 : Int) * 2 ≤ 2 ^ ((-1074 : Int) + k) := by
      rw [← zpow_add_one₀ (by norm_num)]
      exact zpow_le_zpow_right₀ (by norm_num) (by omega)
    generalize (2 : ℚ) ^ (971 : Int) = top at h hunitpos hpow
    linarith

/-- **Rounding up does not go far**, in the range of normal numbers. -/
theorem size_ofRatio_le (hnum : 0 < num) (hden : 0 < den)
    (hnormal : (2 : ℚ) ^ (-1022 : Int) ≤ num / den) :
    (ofRatio false num den).size ≤ num / den * (1 + 1 / 2 ^ 53) := by
  obtain ⟨k, sig, heq, hsig, hk, hnear, hunit⟩ := binary64.exists_roundMagnitude hnum hden
  have hfraction : binary64.fractionBits = 52 := rfl
  have hleast : binary64.leastExponent = -1074 := rfl
  have hquot : (0 : ℚ) < num / den := lt_of_lt_of_le (by positivity) hnormal
  rw [size, unpack, toNat_bits_ofRatio, heq]
  rcases Nat.lt_or_ge (k * 2 ^ binary64.fractionBits + sig) binary64.infinity with hlt | hge
  · rw [Nat.min_eq_left hlt.le, Format.size_unpack_add hsig hk hlt]
    rw [hfraction, hleast] at hunit
    rw [hleast] at hnear ⊢
    have hpos : (0 : ℚ) < 2 ^ ((-1074 : Int) + k) := by positivity
    -- half a unit, measured in the number itself
    have hhalf : (2 : ℚ) ^ 52 * 2 ^ ((-1074 : Int) + k) ≤ num / den := by
      rcases hunit with rfl | hunit
      · refine le_trans (le_of_eq ?_) hnormal
        rw [← zpow_natCast, ← zpow_add₀ (by norm_num)]
        norm_num
      · rwa [le_div_iff₀ hpos] at hunit
    have hsize : (sig : ℚ) * 2 ^ ((-1074 : Int) + k) ≤
        num / den + 1 / 2 * 2 ^ ((-1074 : Int) + k) := by
      have hmul := mul_le_mul_of_nonneg_right hnear hpos.le
      rwa [add_mul, div_mul_cancel₀ _ hpos.ne'] at hmul
    refine hsize.trans ?_
    rw [mul_add, mul_one]
    have hfinal : 1 / 2 * (2 : ℚ) ^ ((-1074 : Int) + k) ≤ num / den * (1 / 2 ^ 53) := by
      rw [mul_one_div, le_div_iff₀ (by norm_num)]
      linarith
    linarith
  · have hinfinite : binary64.unpack binary64.infinity = .infinite false := by decide +kernel
    rw [Nat.min_eq_right hge, hinfinite]
    exact mul_nonneg hquot.le (by positivity)

/-- The significand and the exponent of a finite number are within their bounds. -/
theorem bounds_of_unpack {negative : Bool} {m : Nat} {e : Int}
    (h : x.unpack = .finite negative m e) : m < 2 ^ 53 ∧ e ≤ 971 := by
  rw [unpack, Format.unpack] at h
  have hfraction : x.bits.toNat % twoPow binary64.fractionBits < 2 ^ 52 :=
    Nat.mod_lt _ (Nat.pow_pos Nat.two_pos)
  have hbiased : x.bits.toNat / twoPow binary64.fractionBits % twoPow binary64.exponentBits < 2048 :=
    Nat.mod_lt _ (Nat.pow_pos Nat.two_pos)
  have hunit : twoPow binary64.fractionBits = 2 ^ 52 := rfl
  have htop : binary64.topExponent = 2047 := rfl
  have hleast : binary64.leastExponent = -1074 := rfl
  split_ifs at h with hspecial hzero hsmall
  · obtain ⟨-, rfl, rfl⟩ := Format.Unpacked.finite.inj h
    omega
  · obtain ⟨-, rfl, rfl⟩ := Format.Unpacked.finite.inj h
    omega

/-- The quotient of naturals that a finite number is. -/
theorem ratio_spec (x : Binary64) : 0 < x.ratio.2 ∧ (x.ratio.1 : ℚ) / x.ratio.2 = x.size := by
  rw [ratio, size]
  cases x.unpack with
  | finite negative m e =>
    cases e with
    | ofNat n =>
      refine ⟨Nat.one_pos, ?_⟩
      show ((m * twoPow n : Nat) : ℚ) / ((1 : Nat) : ℚ) = m * 2 ^ (n : Int)
      rw [Nat.cast_mul, Format.cast_twoPow, Nat.cast_one, div_one, zpow_natCast]
    | negSucc n =>
      refine ⟨twoPow_pos (n + 1), ?_⟩
      show (m : ℚ) / ((twoPow (n + 1) : Nat) : ℚ) = m * 2 ^ Int.negSucc n
      rw [Format.cast_twoPow, zpow_negSucc, div_eq_mul_inv]
  | _ =>
    refine ⟨Nat.one_pos, ?_⟩
    show ((0 : Nat) : ℚ) / _ = 0
    rw [Nat.cast_zero, zero_div]

/-- A product is finite if that of the sizes is not too large. -/
theorem isInfinite_mul_eq_false (h : x.size * y.size < (2 ^ 53 - 1 / 2) * 2 ^ (971 : Int)) :
    (x.mul y).isInfinite = false := by
  obtain ⟨hx, hxs⟩ := x.ratio_spec
  obtain ⟨hy, hys⟩ := y.ratio_spec
  refine isInfinite_ofRatio_eq_false (Nat.mul_pos hx hy) ?_
  rw [Nat.cast_mul, Nat.cast_mul, mul_div_mul_comm, hxs, hys]
  exact h

end Binary64

/-! ## Single precision -/

namespace Binary32

theorem unpack_ofRatio_ne_nan (negative : Bool) (num den : Nat) :
    (ofRatio negative num den).unpack ≠ .nan := by
  have hle := binary32.roundMagnitude_le_infinity num den
  have hsign : binary32.signBit + binary32.infinity < UInt32.size := by decide +kernel
  have hlt : binary32.round negative num den < UInt32.size := by
    rw [Format.round, Format.withSign]
    split_ifs <;> omega
  have hbits : (ofRatio negative num den).bits.toNat = binary32.round negative num den :=
    Nat.mod_eq_of_lt hlt
  rw [unpack, hbits]
  exact Format.unpack_withSign_ne_nan hle negative

/-- **Narrowing a number** gives a number, even if it is too large. -/
theorem unpack_ofBinary64_ne_nan {x : Binary64} (h : x.isNaN = false) :
    (ofBinary64 x).unpack ≠ .nan := by
  rw [Binary64.isNaN, beq_eq_false_iff_ne] at h
  rw [ofBinary64]
  cases hunpack : x.unpack with
  | nan => exact absurd hunpack h
  | infinite negative =>
    show (⟨if negative then 0xFF800000 else 0x7F800000⟩ : Binary32).unpack ≠ .nan
    cases negative <;> decide
  | finite negative m e =>
    cases e with
    | ofNat n => exact unpack_ofRatio_ne_nan negative _ _
    | negSucc n => exact unpack_ofRatio_ne_nan negative _ _

end Binary32

end GraphBase.Number
