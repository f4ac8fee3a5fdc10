import GraphBase.Proofs.Json.Numerals
import GraphBase.Proofs.Number.Shortest

/-!
# The range of numerals

A numeral that is too large has no reading, and a reader computes it with two roundings and a
product, which is more than the rounding that would be needed.  So it takes a proof that no number
that was written gets lost (`isSome_toBinary64?_of_ofBinary64?`).

A numeral is read as a word times a power of ten, and the word stops at the digits for which there
is room.  The number that is computed from there is at most the size of the numeral with two
roundings on top (`isSome_scale`).  A numeral that was written is at most half a unit larger than
its number (`size_shortest_le`), and together this is less than four units of the largest numbers.
Only three numbers are closer to infinity than that, and for them the reading is carried out.
-/

namespace GraphBase.Json.Numeral

open GraphBase.Number

/-- The size of a numeral. -/
def size (n : Numeral) : ℚ :=
  (n.whole + ofDigits n.fraction / 10 ^ n.fraction.length) * 10 ^ n.exponent.getD 0

/-! ## Gathering -/

/-- Digits for which there is room are all gathered. -/
theorem gatherWhole_eq {ds : List Char} {word : Nat}
    (h : 10 ^ ds.length * word + ofDigits ds ≤ wordMax) :
    gatherWhole ds word = (10 ^ ds.length * word + ofDigits ds, 0) := by
  induction ds generalizing word with
  | nil =>
    rw [gatherWhole, List.length_nil, pow_zero, one_mul, ofDigits_nil, Nat.add_zero]
  | cons c ds ih =>
    have hstep : 10 ^ (c :: ds).length * word + ofDigits (c :: ds) =
        10 ^ ds.length * (word * 10 + digitValue c) + ofDigits ds := by
      rw [ofDigits_cons, List.length_cons, pow_succ]
      ring
    rw [hstep] at h ⊢
    have hone : word * 10 + digitValue c ≤ 10 ^ ds.length * (word * 10 + digitValue c) :=
      Nat.le_mul_of_pos_left _ (Nat.pow_pos (by decide))
    rw [gatherWhole, if_pos (by omega), ih h]

theorem gatherWhole_toDigits {k : Nat} (h : k ≤ wordMax) : gatherWhole (toDigits k) 0 = (k, 0) := by
  have hds : 10 ^ (toDigits k).length * 0 + ofDigits (toDigits k) = k := by
    rw [Nat.mul_zero, Nat.zero_add, ofDigits_toDigits]
  have hgather : gatherWhole (toDigits k) 0 = (10 ^ (toDigits k).length * 0 +
      ofDigits (toDigits k), 0) := gatherWhole_eq (by rw [hds]; exact h)
  rwa [hds] at hgather

/-- What is gathered is at most what is written. -/
theorem gatherFraction_spec (ds : List Char) (word : Nat) :
    (gatherFraction ds word).2 ≤ ds.length ∧
      (gatherFraction ds word).1 * 10 ^ (ds.length - (gatherFraction ds word).2) ≤
        word * 10 ^ ds.length + ofDigits ds := by
  induction ds generalizing word with
  | nil => exact ⟨le_rfl, by simp [gatherFraction]⟩
  | cons c ds ih =>
    obtain ⟨hle, hgathered⟩ := ih (word * 10 + digitValue c)
    rw [gatherFraction]
    split_ifs with hroom
    · refine ⟨Nat.succ_le_succ hle, ?_⟩
      simp only [List.length_cons, Nat.add_sub_add_right]
      refine hgathered.trans (le_of_eq ?_)
      rw [ofDigits_cons, pow_succ]
      ring
    · exact ⟨Nat.zero_le _, Nat.le_add_right _ _⟩

/-- The gathered word and its power of ten are at most the size of the numeral. -/
theorem gathered_le_size (n : Numeral) :
    ((gatherFraction n.fraction n.whole).1 : ℚ) *
        10 ^ (-((gatherFraction n.fraction n.whole).2 : Int) + n.exponent.getD 0) ≤ n.size := by
  obtain ⟨hle, hgathered⟩ := gatherFraction_spec n.fraction n.whole
  generalize gatherFraction n.fraction n.whole = g at hle hgathered
  obtain ⟨word, taken⟩ := g
  have hten : (10 : ℚ) ≠ 0 := by norm_num
  have hcast : (word : ℚ) * 10 ^ (n.fraction.length - taken) ≤
      n.whole * 10 ^ n.fraction.length + ofDigits n.fraction := by exact_mod_cast hgathered
  have hsplit : (10 : ℚ) ^ n.fraction.length = 10 ^ (n.fraction.length - taken) * 10 ^ taken := by
    rw [← pow_add, Nat.sub_add_cancel hle]
  have hword : (word : ℚ) * 10 ^ (-(taken : Int)) ≤
      n.whole + ofDigits n.fraction / 10 ^ n.fraction.length := by
    rw [zpow_neg, zpow_natCast, ← div_eq_mul_inv, div_le_iff₀ (by positivity), add_mul,
      div_mul_eq_mul_div, hsplit]
    rw [hsplit] at hcast
    have hpos : (0 : ℚ) < 10 ^ (n.fraction.length - taken) := by positivity
    refine le_of_mul_le_mul_right ?_ hpos
    refine hcast.trans (le_of_eq ?_)
    field_simp
  rw [zpow_add₀ hten, ← mul_assoc, size]
  exact mul_le_mul_of_nonneg_right hword (zpow_nonneg (by norm_num) _)

/-! ## Scaling -/

/-- The largest size that is not rounded to infinity comes short of this. -/
def beyond : ℚ := (2 ^ 53 - 1 / 2) * 2 ^ (971 : Int)

/-- The powers of ten beyond the table are beyond the range as well. -/
theorem beyond_lt_pow {n : Nat} (hn : 309 ≤ n) : beyond < 10 ^ n := by
  have htwo : beyond < 2 ^ (1024 : Int) := by
    rw [beyond, show (1024 : Int) = 53 + 971 from rfl, zpow_add₀ (by norm_num)]
    exact mul_lt_mul_of_pos_right (by norm_num) (zpow_pos (by norm_num) _)
  have hnat : twoPow 1024 ≤ tenPow 309 := by decide +kernel
  have hcast : ((twoPow 1024 : Nat) : ℚ) ≤ (tenPow 309 : Nat) := Nat.cast_le.2 hnat
  rw [Format.cast_twoPow, cast_tenPow] at hcast
  exact htwo.trans_le (hcast.trans (pow_le_pow_right₀ (by norm_num) hn))

/-- Numbers are read at any small exponent. -/
theorem isSome_scale_of_neg (fuel : Nat) (x : Binary64) {e : Int} (he : e < 0) :
    (scale fuel x e).isSome = true := by
  induction fuel generalizing x e with
  | zero =>
    obtain ⟨n, rfl⟩ := Int.eq_negSucc_of_lt_zero he
    rw [scale]
    split_ifs <;> rfl
  | succ fuel ih =>
    obtain ⟨n, rfl⟩ := Int.eq_negSucc_of_lt_zero he
    rw [scale]
    split_ifs with hnear hzero
    · rfl
    · rfl
    · exact ih _ (by omega)

theorem size_ofRatio_one_le (k : Nat) :
    (Binary64.ofRatio false k 1).size ≤ k * (1 + 1 / 2 ^ 53) := by
  rcases Nat.eq_zero_or_pos k with rfl | hk
  · rw [Nat.cast_zero, zero_mul]
    refine le_of_eq ?_
    show ((0 : Nat) : ℚ) * 2 ^ (-1074 : Int) = 0
    rw [Nat.cast_zero, zero_mul]
  · have hone : (1 : ℚ) ≤ k := by exact_mod_cast hk
    have hsize := Binary64.size_ofRatio_le hk Nat.one_pos (by
      rw [Nat.cast_one, div_one]
      refine le_trans ?_ hone
      exact zpow_le_one_of_nonpos₀ (by norm_num) (by norm_num))
    rwa [Nat.cast_one, div_one] at hsize

/-- **A word times a power of ten is read** if the two roundings leave it below infinity. -/
theorem isSome_scale (fuel word : Nat) (e : Int)
    (h : (word : ℚ) * 10 ^ e * (1 + 1 / 2 ^ 53) ^ 2 < beyond) :
    (scale fuel (.ofRatio false word 1) e).isSome = true := by
  rcases lt_or_ge e 0 with he | he
  · exact isSome_scale_of_neg fuel _ he
  obtain ⟨n, rfl⟩ := Int.eq_ofNat_of_zero_le he
  rw [zpow_natCast] at h
  unfold scale
  split_ifs with hnear hzero
  · have hfinite : ((Binary64.ofRatio false word 1).mul (powerOfTen n)).isInfinite = false := by
      refine Binary64.isInfinite_mul_eq_false (lt_of_le_of_lt ?_ h)
      have hword := size_ofRatio_one_le word
      have hpower : (powerOfTen n).size ≤ 10 ^ n * (1 + 1 / 2 ^ 53) := by
        have hle := size_ofRatio_one_le (tenPow n)
        rwa [cast_tenPow] at hle
      refine (mul_le_mul hword hpower (Binary64.size_nonneg _) (by positivity)).trans
        (le_of_eq ?_)
      ring
    simp only [hfinite, Bool.false_eq_true, if_false]
    rfl
  · rfl
  · -- the power alone is too large, unless the word is zero
    exfalso
    have hword : word ≠ 0 := by
      rintro rfl
      exact hzero rfl
    have hone : (1 : ℚ) ≤ word := by exact_mod_cast Nat.pos_of_ne_zero hword
    have hn : 309 ≤ n := by
      rw [Int.natAbs_natCast] at hnear
      omega
    have hproduct : (10 : ℚ) ^ n ≤ word * 10 ^ n * (1 + 1 / 2 ^ 53) ^ 2 := by
      have hfactor : (1 : ℚ) ≤ (1 + 1 / 2 ^ 53) ^ 2 := by norm_num
      calc (10 : ℚ) ^ n ≤ word * 10 ^ n := le_mul_of_one_le_left (by positivity) hone
        _ ≤ word * 10 ^ n * (1 + 1 / 2 ^ 53) ^ 2 := le_mul_of_one_le_right (by positivity) hfactor
    exact absurd (h.trans (beyond_lt_pow hn)) (not_lt_of_ge hproduct)

/-- **A numeral is read if its size is below infinity, with two roundings on top.** -/
theorem isSome_toBinary64? {n : Numeral} (hwhole : n.whole ≤ wordMax)
    (hsize : n.size * (1 + 1 / 2 ^ 53) ^ 2 < beyond) : n.toBinary64?.isSome = true := by
  have hle := gathered_le_size n
  have hscale := isSome_scale 4 (gatherFraction n.fraction n.whole).1
    (-((gatherFraction n.fraction n.whole).2 : Int) + n.exponent.getD 0)
    (lt_of_le_of_lt (mul_le_mul_of_nonneg_right hle (by positivity)) hsize)
  rw [toBinary64?, gatherWhole_toDigits hwhole]
  simp only [Option.isSome_map]
  rw [show ((0 : Nat) : Int) - ((gatherFraction n.fraction n.whole).2 : Int) =
    -((gatherFraction n.fraction n.whole).2 : Int) by omega]
  exact hscale

/-! ## Numerals that are written -/

theorem length_padDigits {count k : Nat} (hcount : 0 < count) (h : k < 10 ^ count) :
    (padDigits count k).length = count := by
  have hle := (digitCount_le_iff hcount).2 h
  rw [digitCount] at hle
  rw [padDigits, List.length_append, zeros, List.length_replicate]
  omega

/-- **A layout writes the number that it is given.** -/
theorem size_numeral (layout : DataLayout) (negative : Bool) (d : Decimal) :
    (layout.numeral negative d).size = d.size := by
  obtain ⟨digits, exponent⟩ := d
  have hten : (10 : ℚ) ≠ 0 := by norm_num
  have hzero : ofDigits ['0'] = 0 := rfl
  rw [DataLayout.numeral, Decimal.size]
  simp only
  split_ifs with hnone hwindow
  · simp [size, hzero, hnone]
  · cases exponent with
    | ofNat n =>
      simp only [size, hzero, Option.getD_none, Int.ofNat_eq_natCast, zpow_natCast, Nat.cast_mul,
        cast_tenPow, Nat.cast_zero, zero_div, add_zero, zpow_zero, mul_one]
    | negSucc n =>
      have hlt : digits % tenPow (n + 1) < 10 ^ (n + 1) :=
        Nat.mod_lt _ (Nat.pow_pos (by decide))
      have hfraction : ofDigits (padDigits (n + 1) (digits % tenPow (n + 1))) =
          digits % tenPow (n + 1) := by
        rw [padDigits, ofDigits_zeros_append, ofDigits_toDigits]
      have hsplit : (digits : ℚ) = 10 ^ (n + 1) * (digits / tenPow (n + 1) : Nat) +
          (digits % tenPow (n + 1) : Nat) := by
        rw [← cast_tenPow]
        exact_mod_cast (Nat.div_add_mod digits (tenPow (n + 1))).symm
      simp only [size, hfraction, length_padDigits (Nat.succ_pos n) hlt, Option.getD_none,
        zpow_zero, mul_one, zpow_negSucc]
      rw [← div_eq_mul_inv, eq_div_iff (by positivity), add_mul,
        div_mul_cancel₀ _ (by positivity), mul_comm, ← hsplit]
  · have hlength : ((toDigits digits).drop 1).length + 1 = (toDigits digits).length := by
      have hpos := digitCount_pos digits
      rw [digitCount] at hpos
      rw [List.length_drop]
      omega
    have hsplit : (digits : ℚ) = 10 ^ ((toDigits digits).drop 1).length *
        ofDigits ((toDigits digits).take 1) + ofDigits ((toDigits digits).drop 1) := by
      have happend := ofDigits_append ((toDigits digits).take 1) ((toDigits digits).drop 1)
      rw [List.take_append_drop, ofDigits_toDigits] at happend
      exact_mod_cast happend
    have hexponent : (digitCount digits : Int) + exponent - 1 =
        ((toDigits digits).drop 1).length + exponent := by
      rw [digitCount]
      omega
    simp only [size, Option.getD_some, hexponent]
    rw [zpow_add₀ hten, zpow_natCast, ← mul_assoc, add_mul, div_mul_cancel₀ _ (by positivity),
      hsplit, mul_comm (ofDigits _ : ℚ)]

/-- The integer part that double precision calls for always has room. -/
theorem whole_numeral_le (negative : Bool) (d : Decimal) :
    (doubleLayout.numeral negative d).whole ≤ wordMax := by
  obtain ⟨digits, exponent⟩ := d
  have hdigits : digits < 10 ^ digitCount digits :=
    (digitCount_le_iff (digitCount_pos digits)).1 le_rfl
  have hsmall : (10 : Nat) ^ 16 ≤ wordMax := by decide
  rw [DataLayout.numeral]
  simp only
  split_ifs with hnone hwindow
  · exact Nat.zero_le _
  · have hmost : (digitCount digits : Int) + exponent ≤ 16 := by
      have hlayout : doubleLayout.most = 15 := rfl
      omega
    cases exponent with
    | ofNat n =>
      have hle : digitCount digits + n ≤ 16 := by
        rw [Int.ofNat_eq_natCast] at hmost
        omega
      calc digits * tenPow n ≤ 10 ^ digitCount digits * 10 ^ n :=
            Nat.mul_le_mul_right _ hdigits.le
        _ = 10 ^ (digitCount digits + n) := (pow_add 10 _ _).symm
        _ ≤ 10 ^ 16 := Nat.pow_le_pow_right (by decide) hle
        _ ≤ wordMax := hsmall
    | negSucc n =>
      have hle : digitCount digits ≤ 16 + (n + 1) := by omega
      have hlt : digits / tenPow (n + 1) < 10 ^ 16 := by
        refine Nat.div_lt_of_lt_mul (hdigits.trans_le ?_)
        calc 10 ^ digitCount digits ≤ 10 ^ (16 + (n + 1)) := Nat.pow_le_pow_right (by decide) hle
          _ = 10 ^ (n + 1) * 10 ^ 16 := by rw [pow_add, Nat.mul_comm]
      exact hlt.le.trans hsmall
  · have htake : ofDigits ((toDigits digits).take 1) < 10 ^ ((toDigits digits).take 1).length :=
      ofDigits_lt fun c hc => isDigit_of_mem_toDigits (List.mem_of_mem_take hc)
    have hlength : ((toDigits digits).take 1).length ≤ 16 :=
      (List.length_take_le 1 _).trans (by decide)
    exact (htake.le.trans (Nat.pow_le_pow_right (by decide) hlength)).trans hsmall

/-- The three largest numbers are read as well. -/
theorem isSome_toBinary64?_largest : ∀ negative : Bool, ∀ k < 3,
    (doubleLayout.numeral negative (shortest binary64 (2 ^ 53 - 1 - k) 971)).toBinary64?.isSome =
      true := by
  decide +kernel

/-- **Every number that is written is read again.** -/
theorem isSome_toBinary64?_of_ofBinary64? {x : Binary64} {n : Numeral}
    (h : ofBinary64? x = some n) : n.toBinary64?.isSome = true := by
  rw [ofBinary64?] at h
  cases hx : x.unpack with
  | finite negative m e =>
    rw [hx, ofUnpacked?, Option.some_inj] at h
    obtain ⟨hm, he⟩ := Binary64.bounds_of_unpack hx
    by_cases hlarge : e = 971 ∧ 2 ^ 53 - 4 < m
    · obtain ⟨rfl, hlarge⟩ := hlarge
      obtain ⟨k, hk, rfl⟩ : ∃ k < 3, m = 2 ^ 53 - 1 - k := ⟨2 ^ 53 - 1 - m, by omega, by omega⟩
      rw [← h]
      exact isSome_toBinary64?_largest negative k hk
    · have hsize := size_shortest_le binary64 m e
      have hunit : (0 : ℚ) < 2 ^ (971 : Int) := zpow_pos (by norm_num) _
      have hroom : (m + 1 / 2 : ℚ) * 2 ^ e ≤ (2 ^ 53 - 4 + 1 / 2) * 2 ^ (971 : Int) := by
        rcases eq_or_ne e 971 with rfl | hne
        · have hm' : m ≤ 2 ^ 53 - 4 := by omega
          have hcast : (m : ℚ) ≤ 2 ^ 53 - 4 := by
            have := (Nat.cast_le (α := ℚ)).2 hm'
            norm_num at this ⊢
            exact this
          exact mul_le_mul_of_nonneg_right (by linarith) hunit.le
        · have hle : e ≤ 970 := by omega
          have hpow : (2 : ℚ) ^ e ≤ 2 ^ (970 : Int) := zpow_le_zpow_right₀ (by norm_num) hle
          have hhalf : (2 : ℚ) ^ (971 : Int) = 2 ^ (970 : Int) * 2 := by
            rw [← zpow_add_one₀ (by norm_num)]
            rfl
          have hcast : (m : ℚ) + 1 / 2 ≤ 2 ^ 53 := by
            have : (m : ℚ) + 1 ≤ 2 ^ 53 := by exact_mod_cast hm
            linarith
          have hpos : (0 : ℚ) < 2 ^ (970 : Int) := zpow_pos (by norm_num) _
          calc (m + 1 / 2 : ℚ) * 2 ^ e ≤ 2 ^ 53 * 2 ^ (970 : Int) :=
                mul_le_mul hcast hpow (zpow_nonneg (by norm_num) _) (by norm_num)
            _ ≤ (2 ^ 53 - 4 + 1 / 2) * 2 ^ (971 : Int) := by
              rw [hhalf]
              generalize (2 : ℚ) ^ (970 : Int) = unit at hpos
              linarith
      refine isSome_toBinary64? ?_ ?_
      · rw [← h]
        exact whole_numeral_le negative _
      · rw [← h, size_numeral]
        refine lt_of_le_of_lt
          (mul_le_mul_of_nonneg_right (hsize.trans hroom) (by positivity)) ?_
        rw [beyond, mul_right_comm]
        exact mul_lt_mul_of_pos_right (by norm_num) hunit
  | _ =>
    rw [hx] at h
    cases h

end GraphBase.Json.Numeral
