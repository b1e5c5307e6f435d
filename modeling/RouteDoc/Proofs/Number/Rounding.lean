import Mathlib.Algebra.Order.Field.Power
import Mathlib.Tactic.FieldSimp
import Mathlib.Tactic.Linarith
import Mathlib.Tactic.NormNum
import Mathlib.Tactic.Positivity
import Mathlib.Tactic.Ring
import RouteDoc.Number.Shortest

/-!
# Rounding to binary numbers

A fraction that lies in the rounding interval of a positive number is rounded to that number, whatever
numerator and denominator it is given by, and so is a decimal, whatever digits and power of ten.

* `Binary64.Interval.Contains` — the rationals of an interval; `Binary64.Interval.holds_iff` — the test decides it;
* `Binary64.ofRatio_of_contains` — fractions in the interval of a number are rounded to it;
* `Binary64.ofDecimal_of_contains` — the same of decimals, which are far from the bounds of magnitude then.
-/

namespace RouteDoc.Binary64

/-! ### Comparing decimals with binary numbers -/

/-- A power of an integer exponent as a quotient of natural powers. -/
theorem zpow_eq_div (x : ℚ) (hx : x ≠ 0) (k : ℤ) : x ^ k = x ^ k.toNat / x ^ (-k).toNat := by
  have hk : k = (k.toNat : ℤ) - ((-k).toNat : ℤ) := by omega
  conv_lhs => rw [hk, zpow_sub₀ hx, zpow_natCast, zpow_natCast]

/-- Both sides of a comparison stand over a common denominator. -/
theorem exists_commonScale (a : ℕ) (unit : ℤ) (b : ℕ) (scale : ℤ) :
    ∃ D : ℚ, 0 < D ∧ ((commonScale a unit b scale).1 : ℚ) = a * 2 ^ unit * D ∧
      ((commonScale a unit b scale).2 : ℚ) = b * 10 ^ scale * D := by
  have left : ∀ n : ℕ, ((if unit < 0 then n else n * Nat.pow 2 unit.toNat : ℕ) : ℚ)
      = n * 2 ^ unit * 2 ^ (-unit).toNat := by
    intro n
    rw [zpow_eq_div 2 (by norm_num) unit]
    split
    · next h => simp [show unit.toNat = 0 by omega]
    · next h => simp [show (-unit).toNat = 0 by omega]
  have right : ∀ n : ℕ, ((if unit < 0 then n * Nat.pow 2 (-unit).toNat else n : ℕ) : ℚ)
      = n * 2 ^ (-unit).toNat := by
    intro n
    split
    · simp
    · next h => simp [show (-unit).toNat = 0 by omega]
  refine ⟨2 ^ (-unit).toNat * 10 ^ (-scale).toNat, by positivity, ?_, ?_⟩
  · unfold commonScale
    dsimp only
    split
    · rw [Nat.cast_mul, left, Nat.pow_eq, Nat.cast_pow, Nat.cast_ofNat]
      ring
    · next h =>
      rw [left, show (-scale).toNat = 0 by omega]
      ring
  · rw [zpow_eq_div 10 (by norm_num) scale]
    unfold commonScale
    dsimp only
    split
    · next h =>
      rw [right, show scale.toNat = 0 by omega]
      field_simp
    · next h =>
      rw [Nat.cast_mul, right, Nat.pow_eq, Nat.cast_pow, Nat.cast_ofNat, show (-scale).toNat = 0 by omega]
      ring

theorem commonScale_le_iff (a : ℕ) (unit : ℤ) (b : ℕ) (scale : ℤ) :
    (commonScale a unit b scale).1 ≤ (commonScale a unit b scale).2 ↔ (a : ℚ) * 2 ^ unit ≤ b * 10 ^ scale := by
  obtain ⟨D, hD, h1, h2⟩ := exists_commonScale a unit b scale
  rw [← Nat.cast_le (α := ℚ), h1, h2, mul_le_mul_iff_left₀ hD]

theorem commonScale_ge_iff (a : ℕ) (unit : ℤ) (b : ℕ) (scale : ℤ) :
    (commonScale a unit b scale).2 ≤ (commonScale a unit b scale).1 ↔ (b : ℚ) * 10 ^ scale ≤ a * 2 ^ unit := by
  obtain ⟨D, hD, h1, h2⟩ := exists_commonScale a unit b scale
  rw [← Nat.cast_le (α := ℚ), h1, h2, mul_le_mul_iff_left₀ hD]

/-- The rationals that an interval holds. -/
def Interval.Contains (i : Interval) (q : ℚ) : Prop :=
  if i.closed then (i.low : ℚ) * 2 ^ i.unit ≤ q ∧ q ≤ i.high * 2 ^ i.unit
  else (i.low : ℚ) * 2 ^ i.unit < q ∧ q < i.high * 2 ^ i.unit

/-- **The test of an interval** decides whether a decimal lies in it. -/
theorem Interval.holds_iff (i : Interval) (digits : ℕ) (scale : ℤ) :
    i.holds digits scale = true ↔ i.Contains (digits * 10 ^ scale) := by
  unfold holds Contains
  dsimp only
  cases i.closed with
  | true =>
    simp only [if_true, Bool.and_eq_true, decide_eq_true_eq]
    rw [commonScale_le_iff, commonScale_ge_iff]
  | false =>
    simp only [Bool.false_eq_true, if_false, Bool.and_eq_true, decide_eq_true_eq]
    rw [← not_le, ← not_le, commonScale_le_iff, commonScale_ge_iff, not_le, not_le]

theorem Interval.Contains.low_le {i : Interval} {q : ℚ} (h : i.Contains q) : (i.low : ℚ) * 2 ^ i.unit ≤ q := by
  unfold Contains at h
  split at h
  · exact h.1
  · exact h.1.le

theorem Interval.Contains.le_high {i : Interval} {q : ℚ} (h : i.Contains q) : q ≤ i.high * 2 ^ i.unit := by
  unfold Contains at h
  split at h
  · exact h.2
  · exact h.2.le

/-! ### Rounding a quotient -/

/-- A quotient within half a unit of a natural number is rounded to it, and in the middle when it is even. -/
theorem roundHalfEven_eq {num den m : ℕ} (hden : 0 < den) (hlow : 2 * m * den ≤ 2 * num + den)
    (hhigh : 2 * num ≤ 2 * m * den + den)
    (htie : m % 2 = 0 ∨ (2 * m * den < 2 * num + den ∧ 2 * num < 2 * m * den + den)) :
    roundHalfEven num den = m := by
  have hdiv : den * (num / den) + num % den = num := Nat.div_add_mod num den
  have hmod : num % den < den := Nat.mod_lt num hden
  unfold roundHalfEven
  dsimp only
  generalize num / den = low at *
  generalize num % den = rest at *
  -- the floor of the quotient is the number or the one before it
  have hle : low ≤ m := by
    by_contra hlt
    have : den * (m + 1) ≤ den * low := Nat.mul_le_mul_left den (by omega)
    nlinarith
  have hge : m ≤ low + 1 := by
    by_contra hlt
    have : den * (low + 2) ≤ den * m := Nat.mul_le_mul_left den (by omega)
    nlinarith
  obtain rfl | rfl : low = m ∨ m = low + 1 := by omega
  · have hrest : 2 * rest ≤ den := by nlinarith
    have hmiddle : low % 2 = 0 ∨ 2 * rest < den := htie.imp_right fun hstrict => by nlinarith
    split_ifs <;> omega
  · have hrest : den ≤ 2 * rest := by nlinarith
    have hmiddle : (low + 1) % 2 = 0 ∨ den < 2 * rest := htie.imp_right fun hstrict => by nlinarith
    split_ifs <;> omega

/-- The quotient that is rounded, in units of the power of two. -/
theorem scaled_spec (num : ℕ) {den : ℕ} (hden : 0 < den) (k : ℤ) :
    0 < (scaled num den k).2 ∧
      ((scaled num den k).1 : ℚ) = (num : ℚ) / den / 2 ^ k * (scaled num den k).2 := by
  have hden' : (den : ℚ) ≠ 0 := by positivity
  rw [zpow_eq_div 2 (by norm_num) k]
  unfold scaled
  split
  · next h =>
    refine ⟨hden, ?_⟩
    simp only [show k.toNat = 0 by omega, pow_zero, Nat.pow_eq, Nat.cast_mul, Nat.cast_pow, Nat.cast_ofNat]
    field_simp
  · next h =>
    refine ⟨Nat.mul_pos hden (Nat.pow_pos (by norm_num)), ?_⟩
    simp only [show (-k).toNat = 0 by omega, pow_zero, Nat.pow_eq, Nat.cast_mul, Nat.cast_pow, Nat.cast_ofNat]
    field_simp

/-- The exponent at which the significand of a quotient has its full length. -/
def fittedExponent (num den : ℕ) : ℤ :=
  let guess : ℤ := (Nat.log2 num : ℤ) - (Nat.log2 den : ℤ) - 53
  if (scaled num den guess).1 / (scaled num den guess).2 ≥ 2 * leadingBit then guess + 1 else guess

theorem ofRatio_eq (negative : Bool) {num : ℕ} (hnum : num ≠ 0) (den : ℕ) :
    ofRatio negative num den =
      let exponent := max (fittedExponent num den) (-1074)
      let significand := roundHalfEven (scaled num den exponent).1 (scaled num den exponent).2
      if significand = 2 * leadingBit then assemble negative leadingBit (exponent + 1)
      else assemble negative significand exponent := by
  rw [ofRatio, if_neg hnum]
  rfl

theorem two_zpow_add (a b : ℤ) : (2 : ℚ) ^ (a + b) = 2 ^ a * 2 ^ b := zpow_add₀ (by norm_num) a b

theorem scale_leadingBit (k : ℤ) : (2 : ℚ) ^ (k + 52) = 4503599627370496 * 2 ^ k := by
  rw [two_zpow_add]
  norm_num
  ring

/-- A natural number lies between the powers of two that its binary logarithm gives. -/
theorem log2_bounds {n : ℕ} (hn : 0 < n) :
    (2 : ℚ) ^ (Nat.log2 n : ℤ) ≤ n ∧ (n : ℚ) < 2 ^ ((Nat.log2 n : ℤ) + 1) := by
  constructor
  · rw [zpow_natCast]
    exact_mod_cast Nat.log2_self_le hn.ne'
  · rw [show (Nat.log2 n : ℤ) + 1 = ((Nat.log2 n + 1 : ℕ) : ℤ) by push_cast; ring, zpow_natCast]
    exact_mod_cast Nat.lt_log2_self

/-- The guess for the fitted exponent is right or too small by one. -/
theorem guess_bounds {num den : ℕ} (hnum : 0 < num) (hden : 0 < den) {guess : ℤ}
    (hguess : (Nat.log2 num : ℤ) - (Nat.log2 den : ℤ) - 53 = guess) :
    (2 : ℚ) ^ (guess + 52) ≤ (num : ℚ) / den ∧ (num : ℚ) / den < 2 ^ (guess + 54) := by
  have hden' : (0 : ℚ) < den := by exact_mod_cast hden
  obtain ⟨hnumLow, hnumHigh⟩ := log2_bounds hnum
  obtain ⟨hdenLow, hdenHigh⟩ := log2_bounds hden
  constructor
  · rw [le_div_iff₀ hden']
    calc (2 : ℚ) ^ (guess + 52) * den
        ≤ 2 ^ (guess + 52) * 2 ^ ((Nat.log2 den : ℤ) + 1) := by gcongr
      _ = 2 ^ (Nat.log2 num : ℤ) := by rw [← two_zpow_add]; congr 1; omega
      _ ≤ num := hnumLow
  · rw [div_lt_iff₀ hden']
    calc (num : ℚ) < 2 ^ ((Nat.log2 num : ℤ) + 1) := hnumHigh
      _ = 2 ^ (guess + 54) * 2 ^ (Nat.log2 den : ℤ) := by rw [← two_zpow_add]; congr 1; omega
      _ ≤ 2 ^ (guess + 54) * den := by gcongr

theorem fittedExponent_spec {num den : ℕ} (hnum : 0 < num) (hden : 0 < den) :
    (2 : ℚ) ^ (fittedExponent num den + 52) ≤ (num : ℚ) / den ∧
      (num : ℚ) / den < 2 ^ (fittedExponent num den + 53) := by
  unfold fittedExponent
  dsimp only
  generalize hguess : (Nat.log2 num : ℤ) - (Nat.log2 den : ℤ) - 53 = guess
  obtain ⟨hlow, hhigh⟩ := guess_bounds hnum hden hguess
  -- the floor of the scaled quotient tells whether the quotient has one bit more
  obtain ⟨hpos, hscaled⟩ := scaled_spec num hden guess
  have htest : (scaled num den guess).1 / (scaled num den guess).2 ≥ 2 * leadingBit ↔
      (2 : ℚ) ^ (guess + 53) ≤ (num : ℚ) / den := by
    have hpos' : (0 : ℚ) < (scaled num den guess).2 := by exact_mod_cast hpos
    have hbits : ((2 * leadingBit : ℕ) : ℚ) = 2 ^ (53 : ℤ) := by norm_num
    rw [ge_iff_le, Nat.le_div_iff_mul_le hpos, ← Nat.cast_le (α := ℚ), Nat.cast_mul, hscaled,
      mul_le_mul_iff_left₀ hpos', le_div_iff₀ (by positivity), hbits, ← two_zpow_add, add_comm (53 : ℤ)]
  by_cases hbig : (2 : ℚ) ^ (guess + 53) ≤ (num : ℚ) / den
  · rw [if_pos (htest.2 hbig), show guess + 1 + 52 = guess + 53 by ring, show guess + 1 + 53 = guess + 54 by ring]
    exact ⟨hbig, hhigh⟩
  · rw [if_neg (fun h => hbig (htest.1 h))]
    exact ⟨hlow, not_le.1 hbig⟩

/-- The fitted exponent is the one between whose powers the quotient lies. -/
theorem fittedExponent_eq {num den : ℕ} (hnum : 0 < num) (hden : 0 < den) {k : ℤ}
    (hlow : (2 : ℚ) ^ (k + 52) ≤ (num : ℚ) / den) (hhigh : (num : ℚ) / den < 2 ^ (k + 53)) :
    fittedExponent num den = k := by
  obtain ⟨h1, h2⟩ := fittedExponent_spec hnum hden
  have hle : k + 52 < fittedExponent num den + 53 :=
    (zpow_lt_zpow_iff_right₀ (by norm_num : (1 : ℚ) < 2)).1 (hlow.trans_lt h2)
  have hge : fittedExponent num den + 52 < k + 53 :=
    (zpow_lt_zpow_iff_right₀ (by norm_num : (1 : ℚ) < 2)).1 (h1.trans_lt hhigh)
  omega

theorem fittedExponent_lt {num den : ℕ} (hnum : 0 < num) (hden : 0 < den) {k : ℤ}
    (hhigh : (num : ℚ) / den < 2 ^ (k + 52)) : fittedExponent num den < k := by
  obtain ⟨h1, -⟩ := fittedExponent_spec hnum hden
  have := (zpow_lt_zpow_iff_right₀ (by norm_num : (1 : ℚ) < 2)).1 (h1.trans_lt hhigh)
  omega

/-- A quotient that is rounded to a significand of at most full length. -/
theorem ofRatio_of_round (negative : Bool) {num den m : ℕ} (hnum : 0 < num) {k : ℤ}
    (hk : max (fittedExponent num den) (-1074) = k)
    (hround : roundHalfEven (scaled num den k).1 (scaled num den k).2 = m) (hm : m < 2 * leadingBit) :
    ofRatio negative num den = assemble negative m k := by
  rw [ofRatio_eq negative hnum.ne' den]
  dsimp only
  rw [hk, hround, if_neg hm.ne]

/-- A quotient that is rounded up to the next power of two. -/
theorem ofRatio_of_carry (negative : Bool) {num den : ℕ} (hnum : 0 < num) {k : ℤ}
    (hk : max (fittedExponent num den) (-1074) = k)
    (hround : roundHalfEven (scaled num den k).1 (scaled num den k).2 = 2 * leadingBit) :
    ofRatio negative num den = assemble negative leadingBit (k + 1) := by
  rw [ofRatio_eq negative hnum.ne' den]
  dsimp only
  rw [hk, hround, if_pos rfl]

/-- Rounding at an exponent gives the significand within half a unit of which the quotient lies. -/
theorem round_scaled_eq {num den m : ℕ} (hden : 0 < den) {k : ℤ}
    (hlow : (2 * m - 1 : ℚ) * 2 ^ k ≤ 2 * ((num : ℚ) / den)) (hhigh : 2 * ((num : ℚ) / den) ≤ (2 * m + 1) * 2 ^ k)
    (htie : m % 2 = 0 ∨ ((2 * m - 1 : ℚ) * 2 ^ k < 2 * ((num : ℚ) / den) ∧
      2 * ((num : ℚ) / den) < (2 * m + 1) * 2 ^ k)) :
    roundHalfEven (scaled num den k).1 (scaled num den k).2 = m := by
  obtain ⟨hpos, hscaled⟩ := scaled_spec num hden k
  have hpos' : (0 : ℚ) < (scaled num den k).2 := by exact_mod_cast hpos
  have hunit : (0 : ℚ) < 2 ^ k := by positivity
  have hq : (num : ℚ) / den = (scaled num den k).1 / (scaled num den k).2 * 2 ^ k := by
    rw [hscaled]
    field_simp
  generalize (scaled num den k).1 = n at *
  generalize (scaled num den k).2 = d at *
  rw [hq] at hlow hhigh htie
  have key : ∀ x : ℚ, 2 * ((n : ℚ) / d * 2 ^ k) = 2 * n / d * 2 ^ k := fun _ => by ring
  have hlow' : (2 * m - 1 : ℚ) * d ≤ 2 * n := by
    rw [key 0, mul_le_mul_iff_left₀ hunit, le_div_iff₀ hpos'] at hlow
    exact hlow
  have hhigh' : (2 * n : ℚ) ≤ (2 * m + 1) * d := by
    rw [key 0, mul_le_mul_iff_left₀ hunit, div_le_iff₀ hpos'] at hhigh
    exact hhigh
  refine roundHalfEven_eq hpos ?_ ?_ (htie.imp_right fun h => ⟨?_, ?_⟩)
  · have : (2 * m * d : ℚ) ≤ 2 * n + d := by linarith
    exact_mod_cast this
  · have : (2 * n : ℚ) ≤ 2 * m * d + d := by linarith
    exact_mod_cast this
  · have hstrict := h.1
    rw [key 0, mul_lt_mul_iff_left₀ hunit, lt_div_iff₀ hpos'] at hstrict
    have : (2 * m * d : ℚ) < 2 * n + d := by linarith
    exact_mod_cast this
  · have hstrict := h.2
    rw [key 0, mul_lt_mul_iff_left₀ hunit, div_lt_iff₀ hpos'] at hstrict
    have : (2 * n : ℚ) < 2 * m * d + d := by linarith
    exact_mod_cast this

/-! ### The rounding interval of a number -/

variable {biased : Fin 2047} {fraction : Fin leadingBit}

theorem leadingBit_eq : leadingBit = 4503599627370496 := rfl

theorem significandOf_lt (biased : Fin 2047) (fraction : Fin leadingBit) :
    significandOf biased fraction < 2 * 4503599627370496 := by
  have hfraction : fraction.val < 4503599627370496 := fraction.isLt
  have hbit := leadingBit_eq
  unfold significandOf
  split <;> omega

theorem exponentOf_bounds (biased : Fin 2047) : -1074 ≤ exponentOf biased ∧ exponentOf biased ≤ 971 := by
  have hlt := biased.isLt
  have hlow : 1 ≤ Nat.max biased.val 1 := Nat.le_max_right _ _
  have hhigh : Nat.max biased.val 1 ≤ 2046 := Nat.max_le.2 ⟨by omega, by norm_num⟩
  unfold exponentOf
  omega

theorem interval_low (hm : 0 < significandOf biased fraction) : ((interval biased fraction).low : ℚ) =
    if fraction.val = 0 ∧ biased.val > 1 then 4 * (significandOf biased fraction : ℚ) - 1
    else 4 * significandOf biased fraction - 2 := by
  show ((if fraction.val = 0 ∧ biased.val > 1 then 4 * significandOf biased fraction - 1
    else 4 * significandOf biased fraction - 2 : ℕ) : ℚ) = _
  generalize significandOf biased fraction = m at *
  split
  · rw [Nat.cast_sub (by omega)]
    push_cast
    ring
  · rw [Nat.cast_sub (by omega)]
    push_cast
    ring

theorem interval_high (biased : Fin 2047) (fraction : Fin leadingBit) :
    ((interval biased fraction).high : ℚ) = 4 * significandOf biased fraction + 2 := by
  show ((4 * significandOf biased fraction + 2 : ℕ) : ℚ) = _
  push_cast
  ring

/-- What it means for a rational to lie in the rounding interval of a number: it is within half a unit of the
significand, and within a quarter below a power of two. -/
theorem interval_bounds {q : ℚ} (hm : 0 < significandOf biased fraction)
    (h : (interval biased fraction).Contains q) :
    let m := significandOf biased fraction
    let k := exponentOf biased
    (2 * m - 1 : ℚ) * 2 ^ k ≤ 2 * q ∧ 2 * q ≤ (2 * m + 1) * 2 ^ k ∧
      (m % 2 = 0 ∨ ((2 * m - 1 : ℚ) * 2 ^ k < 2 * q ∧ 2 * q < (2 * m + 1) * 2 ^ k)) ∧
      (fraction.val = 0 → 1 < biased.val → (4 * m - 1 : ℚ) * 2 ^ k ≤ 4 * q) := by
  intro m k
  have hunit : (2 : ℚ) ^ (k - 2) * 4 = 2 ^ k := by
    rw [show (4 : ℚ) = 2 ^ (2 : ℤ) by norm_num, ← two_zpow_add]
    congr 1
    omega
  have hpos : (0 : ℚ) < 2 ^ (k - 2) := by positivity
  have hlowCast := interval_low hm
  have hhighCast := interval_high biased fraction
  have hlow := h.low_le
  have hhigh := h.le_high
  rw [hlowCast, show (interval biased fraction).unit = k - 2 from rfl] at hlow
  rw [hhighCast, show (interval biased fraction).unit = k - 2 from rfl] at hhigh
  -- a narrow interval begins later than a wide one
  have hwide : (4 * (m : ℚ) - 2) * 2 ^ (k - 2) ≤ q := by
    refine le_trans ?_ hlow
    split <;> nlinarith
  refine ⟨by nlinarith, by nlinarith, ?_, fun hf hb => ?_⟩
  · by_cases heven : m % 2 = 0
    · exact .inl heven
    · right
      have hopen : (interval biased fraction).closed = false := by
        show decide (m % 2 = 0) = false
        simpa using heven
      unfold Interval.Contains at h
      rw [hopen, if_neg (by simp), hlowCast, hhighCast,
        show (interval biased fraction).unit = k - 2 from rfl] at h
      have hwide' : (4 * (m : ℚ) - 2) * 2 ^ (k - 2) < q := by
        refine lt_of_le_of_lt ?_ h.1
        split <;> nlinarith
      exact ⟨by nlinarith, by nlinarith [h.2]⟩
  · rw [if_pos ⟨hf, hb⟩] at hlow
    nlinarith

theorem exponentOf_of_pos (hb : 0 < biased.val) : exponentOf biased = (biased.val : ℤ) - 1075 := by
  have hmax : Nat.max biased.val 1 = biased.val := Nat.max_eq_left hb
  rw [exponentOf, hmax]

theorem significandOf_of_pos (hb : 0 < biased.val) :
    significandOf biased fraction = 4503599627370496 + fraction.val := by
  rw [significandOf, if_neg hb.ne']

theorem assemble_of_biased (negative : Bool) (hb : 0 < biased.val) :
    assemble negative (significandOf biased fraction) (exponentOf biased) = .finite negative biased fraction := by
  have hm : significandOf biased fraction = 4503599627370496 + fraction.val := significandOf_of_pos hb
  have hk : exponentOf biased = (biased.val : ℤ) - 1075 := exponentOf_of_pos hb
  have hbiased := biased.isLt
  have hfraction : fraction.val < 4503599627370496 := fraction.isLt
  have hbit := leadingBit_eq
  have hexponent : Fin.ofNat 2047 (exponentOf biased + 1075).toNat = biased := by
    apply Fin.ext
    rw [Fin.val_ofNat, hk]
    omega
  have hrest : Fin.ofNat leadingBit (significandOf biased fraction - leadingBit) = fraction := by
    apply Fin.ext
    rw [Fin.val_ofNat, hm, show 4503599627370496 + fraction.val - leadingBit = fraction.val by omega]
    exact Nat.mod_eq_of_lt fraction.isLt
  rw [assemble, if_neg (by omega), if_neg (by omega), hexponent, hrest]

theorem assemble_of_subnormal (negative : Bool) (hb : biased.val = 0) (k : ℤ) :
    assemble negative (significandOf biased fraction) k = .finite negative biased fraction := by
  have hm : significandOf biased fraction = fraction.val := by
    rw [significandOf, if_pos hb]
  rw [assemble, hm, if_pos fraction.isLt]
  congr 1
  · exact Fin.ext hb.symm
  · exact Fin.ext (Nat.mod_eq_of_lt fraction.isLt)

/-- The significand and the exponent of a number make it up again. -/
theorem assemble_fields (negative : Bool) (biased : Fin 2047) (fraction : Fin leadingBit) :
    assemble negative (significandOf biased fraction) (exponentOf biased) = .finite negative biased fraction := by
  rcases Nat.eq_zero_or_pos biased.val with hb | hb
  · exact assemble_of_subnormal negative hb _
  · exact assemble_of_biased negative hb

/-! ### Fractions in the rounding interval -/

theorem pos_of_contains {q : ℚ} (hm : 0 < significandOf biased fraction)
    (h : (interval biased fraction).Contains q) : 0 < q := by
  obtain ⟨hlow, -⟩ := interval_bounds hm h
  have hunit : (0 : ℚ) < 2 ^ exponentOf biased := by positivity
  have hmPos : (1 : ℚ) ≤ significandOf biased fraction := by exact_mod_cast hm
  nlinarith

theorem num_pos_of_contains {num den : ℕ} (hm : 0 < significandOf biased fraction)
    (h : (interval biased fraction).Contains ((num : ℚ) / den)) : 0 < num := by
  refine Nat.pos_of_ne_zero fun hzero => ?_
  have hq := pos_of_contains hm h
  simp [hzero] at hq

theorem lt_of_contains {q : ℚ} (hm : 0 < significandOf biased fraction)
    (h : (interval biased fraction).Contains q) : q < 2 ^ (exponentOf biased + 53) := by
  obtain ⟨-, hhigh, -⟩ := interval_bounds hm h
  have hunit : (0 : ℚ) < 2 ^ exponentOf biased := by positivity
  have hmLt : (significandOf biased fraction : ℚ) + 1 ≤ 2 * 4503599627370496 := by
    exact_mod_cast significandOf_lt biased fraction
  rw [show exponentOf biased + 53 = exponentOf biased + 1 + 52 by ring, scale_leadingBit, zpow_add_one₀ (by norm_num)]
  nlinarith

/-- Rounded at the exponent of the number, a fraction in its interval gives the number. -/
theorem ofRatio_of_exponent (negative : Bool) {num den : ℕ} (hden : 0 < den)
    (hm : 0 < significandOf biased fraction) (h : (interval biased fraction).Contains ((num : ℚ) / den))
    (hk : max (fittedExponent num den) (-1074) = exponentOf biased) :
    ofRatio negative num den = .finite negative biased fraction := by
  obtain ⟨hlow, hhigh, htie, -⟩ := interval_bounds hm h
  have hround := round_scaled_eq hden hlow hhigh htie
  rw [ofRatio_of_round negative (num_pos_of_contains hm h) hk hround (significandOf_lt biased fraction)]
  exact assemble_fields negative biased fraction

/-- Below the full length of the significand lies only the interval of a power of two. -/
theorem significandOf_of_below {q : ℚ} (hm : 0 < significandOf biased fraction) (hb : 0 < biased.val)
    (h : (interval biased fraction).Contains q) (hbelow : q < 2 ^ (exponentOf biased + 52)) :
    fraction.val = 0 ∧ significandOf biased fraction = leadingBit := by
  have hmEq : significandOf biased fraction = 4503599627370496 + fraction.val := significandOf_of_pos hb
  obtain ⟨hlow, -⟩ := interval_bounds hm h
  have hunit : (0 : ℚ) < 2 ^ exponentOf biased := by positivity
  have hfraction : fraction.val = 0 := by
    by_contra hf
    have hlarge : (4503599627370496 : ℚ) + 1 ≤ significandOf biased fraction := by
      exact_mod_cast (by omega : 4503599627370496 + 1 ≤ significandOf biased fraction)
    rw [scale_leadingBit] at hbelow
    nlinarith
  exact ⟨hfraction, by rw [hmEq, hfraction]⟩

/-- Rounded at the exponent below, a fraction in the interval of a power of two carries up to it. -/
theorem ofRatio_of_below (negative : Bool) {num den : ℕ} (hden : 0 < den)
    (hm : 0 < significandOf biased fraction) (h : (interval biased fraction).Contains ((num : ℚ) / den))
    (hb : 1 < biased.val) (hbelow : (num : ℚ) / den < 2 ^ (exponentOf biased + 52)) :
    ofRatio negative num den = .finite negative biased fraction := by
  obtain ⟨hfraction, hmBit⟩ := significandOf_of_below hm (by omega) h hbelow
  obtain ⟨-, -, -, hnarrow⟩ := interval_bounds hm h
  have hk : exponentOf biased = (biased.val : ℤ) - 1075 := exponentOf_of_pos (by omega)
  have hnum := num_pos_of_contains hm h
  obtain ⟨k, hexponent⟩ : ∃ k, exponentOf biased = k + 1 := ⟨exponentOf biased - 1, by ring⟩
  -- at the exponent below, the interval begins half a unit before twice the leading bit
  have hpos : (0 : ℚ) < 2 ^ k := by positivity
  have hhalf : (2 * (2 * 4503599627370496) - 1 : ℚ) * 2 ^ k ≤ 2 * ((num : ℚ) / den) := by
    have hnarrow := hnarrow hfraction hb
    rw [hmBit, hexponent, zpow_add_one₀ (by norm_num)] at hnarrow
    push_cast at hnarrow
    linarith
  have hbelow' : (num : ℚ) / den < 2 * 4503599627370496 * 2 ^ k := by
    rw [hexponent, scale_leadingBit, zpow_add_one₀ (by norm_num)] at hbelow
    linarith
  have hfit : fittedExponent num den = k := by
    refine fittedExponent_eq hnum hden ?_ ?_
    · rw [scale_leadingBit]
      nlinarith
    · rw [show k + 53 = k + 1 + 52 by ring, scale_leadingBit, zpow_add_one₀ (by norm_num)]
      linarith
  have hround : roundHalfEven (scaled num den k).1 (scaled num den k).2 = 2 * leadingBit := by
    refine round_scaled_eq hden ?_ ?_ (.inl (by norm_num))
    · push_cast
      exact hhalf
    · push_cast
      linarith
  rw [ofRatio_of_carry negative hnum (by rw [hfit]; omega) hround, ← hexponent, ← hmBit]
  exact assemble_fields negative biased fraction

/-- **A fraction in the rounding interval of a number is rounded to it.** -/
theorem ofRatio_of_contains (negative : Bool) {num den : ℕ} (hden : 0 < den)
    (hm : 0 < significandOf biased fraction) (h : (interval biased fraction).Contains ((num : ℚ) / den)) :
    ofRatio negative num den = .finite negative biased fraction := by
  have hnum := num_pos_of_contains hm h
  have hk := exponentOf_bounds biased
  by_cases hlow : (2 : ℚ) ^ (exponentOf biased + 52) ≤ (num : ℚ) / den
  · have hfit := fittedExponent_eq hnum hden hlow (lt_of_contains hm h)
    exact ofRatio_of_exponent negative hden hm h (by rw [hfit]; omega)
  · rw [not_le] at hlow
    by_cases hb : 1 < biased.val
    · exact ofRatio_of_below negative hden hm h hb hlow
    · -- the least exponent, below which no quotient is rounded
      have hleast : exponentOf biased = -1074 := by
        have hmax : Nat.max biased.val 1 = 1 := Nat.max_eq_right (not_lt.1 hb)
        rw [exponentOf, hmax]
        rfl
      have hfit := fittedExponent_lt hnum hden hlow
      exact ofRatio_of_exponent negative hden hm h (by omega)

/-! ### Rounding a decimal -/

theorem digitCount_pos (n : ℕ) : 0 < digitCount n := List.length_pos_iff.2 Nat.toDigits_ne_nil

/-- A natural number lies between the powers of ten that its digits count. -/
theorem digitCount_bounds {n : ℕ} (hn : 0 < n) : 10 ^ (digitCount n - 1) ≤ n ∧ n < 10 ^ digitCount n := by
  have hpos := digitCount_pos n
  refine ⟨?_, (Nat.length_toDigits_le_iff (by norm_num) hpos).1 le_rfl⟩
  by_cases hone : digitCount n = 1
  · rw [hone]
    exact hn
  · by_contra hlt
    have := (Nat.length_toDigits_le_iff (b := 10) (by norm_num) (by omega : 0 < digitCount n - 1)).2 (not_le.1 hlt)
    have : digitCount n ≤ digitCount n - 1 := this
    omega

/-- The reals that round to a number are far from the bounds of magnitude. -/
theorem magnitude_of_contains {q : ℚ} (hm : 0 < significandOf biased fraction)
    (h : (interval biased fraction).Contains q) : (10 : ℚ) ^ (-400 : ℤ) ≤ q ∧ q < 10 ^ (399 : ℤ) := by
  obtain ⟨hlow, hhigh, -, -⟩ := interval_bounds hm h
  have hmPos : (1 : ℚ) ≤ significandOf biased fraction := by exact_mod_cast hm
  have hmLt : (significandOf biased fraction : ℚ) ≤ 2 * 4503599627370496 := by
    exact_mod_cast (significandOf_lt biased fraction).le
  obtain ⟨hkLow, hkHigh⟩ := exponentOf_bounds biased
  have hunitLow : (2 : ℚ) ^ (-1074 : ℤ) ≤ 2 ^ exponentOf biased := zpow_le_zpow_right₀ (by norm_num) hkLow
  have hunitHigh : (2 : ℚ) ^ exponentOf biased ≤ 2 ^ (971 : ℤ) := zpow_le_zpow_right₀ (by norm_num) hkHigh
  constructor
  · have hpowers : (2 : ℚ) ^ 1074 * 2 ≤ 10 ^ 400 := by
      have hnat : 2 ^ 1074 * 2 ≤ 10 ^ 400 := by decide +kernel
      exact_mod_cast hnat
    have hten : (10 : ℚ) ^ (-400 : ℤ) * 2 ≤ 2 ^ (-1074 : ℤ) := by
      rw [zpow_neg, zpow_neg, zpow_ofNat, zpow_ofNat, inv_mul_le_iff₀ (by positivity), ← div_eq_mul_inv,
        le_div_iff₀ (by positivity), mul_comm]
      exact hpowers
    nlinarith
  · have hpowers : (2 * (2 * 4503599627370496) + 1) * (2 : ℚ) ^ 971 < 2 * 10 ^ 399 := by
      have hnat : (2 * (2 * 4503599627370496) + 1) * 2 ^ 971 < 2 * 10 ^ 399 := by decide +kernel
      exact_mod_cast hnat
    have hproduct : (2 * (significandOf biased fraction : ℚ) + 1) * 2 ^ exponentOf biased
        ≤ (2 * (2 * 4503599627370496) + 1) * 2 ^ (971 : ℤ) := by gcongr
    rw [zpow_ofNat] at hproduct ⊢
    have hlt : 2 * q < 2 * 10 ^ 399 := (hhigh.trans hproduct).trans_lt hpowers
    exact lt_of_mul_lt_mul_left hlt (by norm_num)

/-- **A decimal in the rounding interval of a number is rounded to it.** -/
theorem ofDecimal_of_contains (negative : Bool) {digits : ℕ} {scale : ℤ}
    (hm : 0 < significandOf biased fraction) (h : (interval biased fraction).Contains (digits * 10 ^ scale)) :
    ofDecimal negative digits scale = .finite negative biased fraction := by
  obtain ⟨hlow, hhigh⟩ := magnitude_of_contains hm h
  have hten : (0 : ℚ) < 10 ^ (-400 : ℤ) := by positivity
  have hdigits : 0 < digits := by
    rcases Nat.eq_zero_or_pos digits with rfl | hpos
    · simp only [Nat.cast_zero, zero_mul] at hlow
      linarith
    · exact hpos
  obtain ⟨hfrom, hto⟩ := digitCount_bounds hdigits
  have hpos := digitCount_pos digits
  have hunit : (0 : ℚ) < 10 ^ scale := by positivity
  -- the digits before the point are counted by the power of ten that bounds the number
  have hcountLow : (10 : ℚ) ^ (scale + digitCount digits - 1) ≤ digits * 10 ^ scale := by
    rw [show scale + (digitCount digits : ℤ) - 1 = ((digitCount digits - 1 : ℕ) : ℤ) + scale by omega,
      zpow_add₀ (by norm_num), zpow_natCast]
    have hcast : ((10 : ℚ)) ^ (digitCount digits - 1) ≤ digits := by exact_mod_cast hfrom
    gcongr
  have hcountHigh : (digits : ℚ) * 10 ^ scale < 10 ^ (scale + digitCount digits) := by
    rw [add_comm, zpow_add₀ (by norm_num), zpow_natCast]
    have hcast : (digits : ℚ) < (10 : ℚ) ^ digitCount digits := by exact_mod_cast hto
    gcongr
  have hnotLarge : scale + digitCount digits - 1 < 399 :=
    (zpow_lt_zpow_iff_right₀ (by norm_num : (1 : ℚ) < 10)).1 (hcountLow.trans_lt hhigh)
  have hnotSmall : -400 < scale + digitCount digits :=
    (zpow_lt_zpow_iff_right₀ (by norm_num : (1 : ℚ) < 10)).1 (hlow.trans_lt hcountHigh)
  rw [ofDecimal, if_neg hdigits.ne', if_neg (by omega), if_neg (by omega)]
  split
  · next hs =>
    apply ofRatio_of_contains negative (Nat.pow_pos (by norm_num)) hm
    rw [zpow_eq_div 10 (by norm_num) scale, show scale.toNat = 0 by omega] at h
    simpa [div_eq_mul_inv] using h
  · next hs =>
    apply ofRatio_of_contains negative (by norm_num) hm
    rw [zpow_eq_div 10 (by norm_num) scale, show (-scale).toNat = 0 by omega] at h
    simpa using h

end RouteDoc.Binary64
