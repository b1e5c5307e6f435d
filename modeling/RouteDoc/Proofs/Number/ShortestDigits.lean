import RouteDoc.Proofs.Number.Rounding

/-!
# Shortest digits read back

The digits that are chosen for a number lie in its rounding interval, so they are rounded to it.  The search
starts at the decimal exponent of the number, and at the eighteenth grid at the latest the number's lower
neighbour lies inside: a step of that grid is shorter than half the gap between numbers.

* `Binary64.Interval.magnitude_le` — where the search starts;
* `Binary64.Interval.search_contains` — what it finds;
* `Binary64.ofDecimal_shortest` — the digits chosen for a number are rounded to it.
-/

namespace RouteDoc.Binary64

variable {biased : Fin 2047} {fraction : Fin leadingBit} {i : Interval}

/-! ### The decimal exponent -/

/-- The number of an interval. -/
def Interval.number (i : Interval) : ℚ := i.value * 2 ^ i.unit

/-- An estimate of the decimal exponent of a power of two is too large by one at most. -/
theorem ten_pow_le_of_estimate :
    (∀ n < 1101, 10 ^ (n * 30103 / 100000) ≤ 10 * 2 ^ n) ∧
      ∀ n < 1101, 2 ^ n ≤ 10 ^ ((n * 30103 + 99999) / 100000) := by
  constructor <;> decide +kernel

theorem ten_zpow_le_of_estimate {binary : ℤ} (hlow : -1100 ≤ binary) (hhigh : binary ≤ 1100) :
    (10 : ℚ) ^ ((binary * 30103).fdiv 100000 - 1) ≤ 2 ^ binary := by
  have hfdiv : (binary * 30103).fdiv 100000 = binary * 30103 / 100000 := Int.fdiv_eq_ediv_of_nonneg _ (by norm_num)
  rw [hfdiv]
  rcases Int.le_total 0 binary with hsign | hsign
  · obtain ⟨n, rfl⟩ := Int.eq_ofNat_of_zero_le hsign
    have hnat := ten_pow_le_of_estimate.1 n (by omega)
    have hcast : (10 : ℚ) ^ (n * 30103 / 100000) ≤ 10 * 2 ^ n := by exact_mod_cast hnat
    rw [zpow_sub_one₀ (by norm_num), show (n : ℤ) * 30103 / 100000 = ((n * 30103 / 100000 : ℕ) : ℤ) by omega,
      zpow_natCast, zpow_natCast, ← div_eq_mul_inv, div_le_iff₀ (by norm_num), mul_comm (2 ^ n)]
    exact hcast
  · obtain ⟨n, hn⟩ := Int.eq_ofNat_of_zero_le (show 0 ≤ -binary by omega)
    have hnat := ten_pow_le_of_estimate.2 n (by omega)
    have hcast : (2 : ℚ) ^ n ≤ 10 ^ ((n * 30103 + 99999) / 100000) := by exact_mod_cast hnat
    have hexponent : binary * 30103 / 100000 - 1 ≤ -(((n * 30103 + 99999) / 100000 : ℕ) : ℤ) := by omega
    calc (10 : ℚ) ^ (binary * 30103 / 100000 - 1)
        ≤ 10 ^ (-(((n * 30103 + 99999) / 100000 : ℕ) : ℤ)) := zpow_le_zpow_right₀ (by norm_num) hexponent
      _ ≤ 2 ^ (-(n : ℤ)) := by
        rw [zpow_neg, zpow_neg, zpow_natCast, zpow_natCast]
        exact inv_anti₀ (by positivity) hcast
      _ = 2 ^ binary := by rw [← hn, neg_neg]

/-- **The search starts at the number's own decimal exponent**, or at least not above it. -/
theorem Interval.magnitude_le (hvalue : 0 < i.value) (hlow : -1100 ≤ (Nat.log2 i.value : ℤ) + i.unit)
    (hhigh : (Nat.log2 i.value : ℤ) + i.unit ≤ 1100) : (10 : ℚ) ^ i.magnitude ≤ i.number := by
  have hbinary : (2 : ℚ) ^ ((Nat.log2 i.value : ℤ) + i.unit) ≤ i.number := by
    have hlog := (log2_bounds hvalue).1
    rw [two_zpow_add, number]
    gcongr
  have hestimate := ten_zpow_le_of_estimate hlow hhigh
  unfold magnitude
  dsimp only
  generalize ((Nat.log2 i.value : ℤ) + i.unit) * 30103 = product at *
  by_cases hnext : (commonScale i.value i.unit 1 (product.fdiv 100000 + 1)).2
      ≤ (commonScale i.value i.unit 1 (product.fdiv 100000 + 1)).1
  · rw [if_pos hnext]
    rw [commonScale_ge_iff, Nat.cast_one, one_mul] at hnext
    exact hnext
  · rw [if_neg hnext]
    split
    · exact hestimate.trans hbinary
    · next hthis =>
      rw [not_lt, commonScale_ge_iff, Nat.cast_one, one_mul] at hthis
      exact hthis

/-! ### The search -/

/-- The lower neighbour of the number on a grid. -/
theorem Interval.below_spec (i : Interval) (scale : ℤ) :
    (i.below scale : ℚ) * 10 ^ scale ≤ i.number ∧ i.number < (i.below scale + 1) * 10 ^ scale := by
  obtain ⟨D, hD, hvalue, hgrid⟩ := exists_commonScale i.value i.unit 1 scale
  rw [Nat.cast_one, one_mul] at hgrid
  have hunit : (0 : ℚ) < 10 ^ scale := by positivity
  have hpos : 0 < (commonScale i.value i.unit 1 scale).2 := by
    have : (0 : ℚ) < (commonScale i.value i.unit 1 scale).2 := by
      rw [hgrid]
      positivity
    exact_mod_cast this
  have hbelow : i.below scale = (commonScale i.value i.unit 1 scale).1 / (commonScale i.value i.unit 1 scale).2 := rfl
  rw [hbelow, number]
  generalize (commonScale i.value i.unit 1 scale).1 = value at *
  generalize (commonScale i.value i.unit 1 scale).2 = grid at *
  have hle : ((value / grid : ℕ) : ℚ) * grid ≤ value := by exact_mod_cast Nat.div_mul_le_self value grid
  have hlt : (value : ℚ) < ((value / grid : ℕ) + 1) * grid := by
    have := Nat.lt_mul_div_succ value hpos
    rw [mul_comm] at this
    exact_mod_cast this
  rw [hvalue, hgrid] at hle hlt
  constructor
  · exact le_of_mul_le_mul_right (by linarith) hD
  · exact lt_of_mul_lt_mul_right (by linarith) hD.le

/-- The lower neighbour is not zero on a grid that begins below the number. -/
theorem Interval.below_pos {scale : ℤ} (h : (10 : ℚ) ^ scale ≤ i.number) : 0 < i.below scale := by
  refine Nat.pos_of_ne_zero fun hzero => ?_
  have habove := (i.below_spec scale).2
  rw [hzero] at habove
  simp only [Nat.cast_zero, zero_add, one_mul] at habove
  exact absurd h (not_le.2 habove)

/-- **What the search finds lies in the interval**, once a grid that it tries has a neighbour inside. -/
theorem Interval.search_contains {count : ℕ} {scale : ℤ}
    (h : ∃ k < count, 0 < i.below (scale - k) ∧ i.holds (i.below (scale - k)) (scale - k) = true) :
    i.Contains ((i.search count scale).1 * 10 ^ (i.search count scale).2) := by
  induction count generalizing scale with
  | zero =>
    obtain ⟨k, hk, -⟩ := h
    omega
  | succ count ih =>
    rw [search]
    by_cases hlow : (i.below scale > 0 && i.holds (i.below scale) scale) = true
    · have hlowHolds : i.holds (i.below scale) scale = true := (Bool.and_eq_true _ _ ▸ hlow).2
      by_cases hhigh : i.holds (i.below scale + 1) scale = true
      · have hnearer : i.holds (i.nearer (i.below scale) scale) scale = true := by
          unfold nearer
          dsimp only
          split_ifs <;> assumption
        simp only [hlow, hhigh, Bool.and_self, if_true]
        exact (i.holds_iff _ _).1 hnearer
      · simp only [hlow, hhigh, Bool.and_false, Bool.false_eq_true, if_false, if_true]
        exact (i.holds_iff _ _).1 hlowHolds
    · by_cases hhigh : i.holds (i.below scale + 1) scale = true
      · simp only [hlow, hhigh, Bool.false_and, Bool.false_eq_true, if_false, if_true]
        exact (i.holds_iff _ _).1 hhigh
      · simp only [hlow, hhigh, Bool.and_self, Bool.false_eq_true, if_false]
        obtain ⟨k, hk, hpos, hholds⟩ := h
        cases k with
        | zero =>
          simp only [Nat.cast_zero, sub_zero] at hpos hholds
          exact absurd (by simp [hpos, hholds]) hlow
        | succ k =>
          refine ih ⟨k, by omega, ?_⟩
          rw [show scale - 1 - (k : ℤ) = scale - ((k + 1 : ℕ) : ℤ) by push_cast; ring]
          exact ⟨hpos, hholds⟩

/-- Moving zeros from the digits to the power of ten changes no value. -/
theorem dropZeros_value (fuel digits : ℕ) (scale : ℤ) :
    ((dropZeros fuel digits scale).1 : ℚ) * 10 ^ (dropZeros fuel digits scale).2 = digits * 10 ^ scale := by
  induction fuel generalizing digits scale with
  | zero => rfl
  | succ fuel ih =>
    rw [dropZeros]
    split
    · next h =>
      have hdigits : digits = digits / 10 * 10 := by omega
      rw [ih, zpow_add_one₀ (by norm_num)]
      conv_rhs => rw [hdigits]
      push_cast
      ring
    · rfl

/-! ### The digits of a number -/

theorem number_interval (biased : Fin 2047) (fraction : Fin leadingBit) :
    (interval biased fraction).number = 4 * significandOf biased fraction * 2 ^ (exponentOf biased - 2) := by
  show ((4 * significandOf biased fraction : ℕ) : ℚ) * 2 ^ (exponentOf biased - 2) = _
  push_cast
  ring

/-- The search for the digits of a number starts at a power of ten that is not above it. -/
theorem magnitude_interval_le (hm : 0 < significandOf biased fraction) :
    (10 : ℚ) ^ (interval biased fraction).magnitude ≤ (interval biased fraction).number := by
  have hvalue : (interval biased fraction).value = 4 * significandOf biased fraction := rfl
  have hunit : (interval biased fraction).unit = exponentOf biased - 2 := rfl
  have hle := significandOf_lt biased fraction
  obtain ⟨hlow, hhigh⟩ := exponentOf_bounds biased
  have hlog : Nat.log2 (4 * significandOf biased fraction) < 55 := by
    rw [Nat.log2_lt (by omega)]
    omega
  apply Interval.magnitude_le
  · omega
  · omega
  · rw [hvalue, hunit]
    omega

/-- On a grid whose step is shorter than the unit of the interval the lower neighbour lies inside. -/
theorem holds_below (hm : 0 < significandOf biased fraction) {scale : ℤ}
    (hstep : (10 : ℚ) ^ scale < 2 ^ (exponentOf biased - 2)) :
    (interval biased fraction).holds ((interval biased fraction).below scale) scale = true := by
  obtain ⟨hbelow, habove⟩ := (interval biased fraction).below_spec scale
  rw [number_interval] at hbelow habove
  have hunit : (interval biased fraction).unit = exponentOf biased - 2 := rfl
  have hunitPos : (0 : ℚ) < 2 ^ (exponentOf biased - 2) := by positivity
  have hlow : ((interval biased fraction).low : ℚ) * 2 ^ (interval biased fraction).unit
      < (interval biased fraction).below scale * 10 ^ scale := by
    have hend : ((interval biased fraction).low : ℚ) ≤ 4 * significandOf biased fraction - 1 := by
      rw [interval_low hm]
      split <;> linarith
    rw [hunit]
    nlinarith
  have hhigh : ((interval biased fraction).below scale : ℚ) * 10 ^ scale
      < (interval biased fraction).high * 2 ^ (interval biased fraction).unit := by
    rw [interval_high, hunit]
    nlinarith
  rw [Interval.holds_iff, Interval.Contains]
  split
  · exact ⟨hlow.le, hhigh.le⟩
  · exact ⟨hlow, hhigh⟩

/-- **The digits chosen for a number lie in its rounding interval.** -/
theorem shortest_contains (hm : 0 < significandOf biased fraction) :
    (interval biased fraction).Contains ((shortest biased fraction).1 * 10 ^ (shortest biased fraction).2) := by
  unfold shortest
  dsimp only
  rw [dropZeros_value]
  refine Interval.search_contains ⟨17, by norm_num, ?_⟩
  generalize hscale : (interval biased fraction).magnitude - ((17 : ℕ) : ℤ) = scale
  have hgrid : (10 : ℚ) ^ scale * 10 ^ 17 ≤ (interval biased fraction).number := by
    rw [← zpow_natCast, ← zpow_add₀ (by norm_num), ← hscale, sub_add_cancel]
    exact magnitude_interval_le hm
  have hpow : (0 : ℚ) < 10 ^ scale := by positivity
  -- seventeen digits are more than a significand has
  have hstep : (10 : ℚ) ^ scale < 2 ^ (exponentOf biased - 2) := by
    have hunitPos : (0 : ℚ) < 2 ^ (exponentOf biased - 2) := by positivity
    have hmLt : (significandOf biased fraction : ℚ) < 2 * 4503599627370496 := by
      exact_mod_cast significandOf_lt biased fraction
    rw [number_interval] at hgrid
    nlinarith
  exact ⟨Interval.below_pos (by linarith), holds_below hm hstep⟩

/-- **The digits chosen for a number are rounded to it**, and so is every other spelling of their decimal. -/
theorem ofDecimal_shortest (negative : Bool) (hm : 0 < significandOf biased fraction) {digits : ℕ} {scale : ℤ}
    (h : (digits : ℚ) * 10 ^ scale = (shortest biased fraction).1 * 10 ^ (shortest biased fraction).2) :
    ofDecimal negative digits scale = .finite negative biased fraction :=
  ofDecimal_of_contains negative hm (h ▸ shortest_contains hm)

end RouteDoc.Binary64
