import RouteDoc.Json.Printer
import RouteDoc.Proofs.Json.Grammar
import RouteDoc.Proofs.Number.ShortestDigits

/-!
# Printed numbers

The digits that numbers are printed with are numbers of the grammar, and denote the numbers that were printed:
integers digit by digit, finite binary numbers by the fewest digits that are rounded to them, in each of the
four ways in which the digits are laid out.

* `Json.exists_number_int` — integers;
* `Binary64.exists_number_layout` — the digits of a binary number, as they are laid out;
* `Json.exists_number_float` — finite binary numbers.
-/

namespace RouteDoc

/-! ### Decimal digits -/

namespace Json

theorem digitsValue_eq (cs : List Char) : digitsValue cs = Nat.ofDigitChars 10 cs 0 := rfl

theorem digitsValue_append (cs ds : List Char) :
    digitsValue (cs ++ ds) = 10 ^ ds.length * digitsValue cs + digitsValue ds := by
  rw [digitsValue_eq, digitsValue_eq, digitsValue_eq, Nat.ofDigitChars_append, Nat.ofDigitChars_eq_ofDigitChars_zero]

@[simp] theorem digitsValue_zeros (n : ℕ) : digitsValue (List.replicate n '0') = 0 := by
  rw [digitsValue_eq, Nat.ofDigitChars_replicate_zero, Nat.mul_zero]

@[simp] theorem digitsValue_toDigits (n : ℕ) : digitsValue (Nat.toDigits 10 n) = n := by
  rw [digitsValue_eq, Nat.ofDigitChars_ten_toDigits]

theorem isDigit_of_mem_zeros {n : ℕ} {c : Char} (h : c ∈ List.replicate n '0') : c.isDigit = true := by
  rw [List.eq_of_mem_replicate h]
  decide

theorem isDigit_of_mem_digits {n : ℕ} {c : Char} (h : c ∈ Nat.toDigits 10 n) : c.isDigit = true :=
  Nat.isDigit_of_mem_toDigits (by omega) (by omega) h

/-- The digits of a positive number begin with another digit than zero. -/
theorem head?_toDigits_ne {n : ℕ} (hn : 0 < n) : (Nat.toDigits 10 n).head? ≠ some '0' := by
  induction n using Nat.strong_induction_on with
  | h n ih =>
    rw [Nat.toDigits_eq_if (by omega)]
    split
    · next hlt =>
      intro heq
      have hdigit : Nat.digitChar n = '0' := by simpa using heq
      have hvalue := Nat.toNat_digitChar_sub_48_of_lt_ten hlt
      rw [hdigit] at hvalue
      have hzero : n = 0 := hvalue.symm
      omega
    · next hge =>
      have hprefix := ih (n / 10) (by omega) (by omega)
      rwa [List.head?_append_of_ne_nil _ Nat.toDigits_ne_nil]

/-- The digits of a natural number. -/
def Digits.ofNat (n : ℕ) : Digits := ⟨Nat.toDigits 10 n, Nat.toDigits_ne_nil, fun _ => isDigit_of_mem_digits⟩

theorem leading_toDigits (n : ℕ) (h : (Nat.toDigits 10 n).head? = some '0') : Nat.toDigits 10 n = ['0'] := by
  rcases Nat.eq_zero_or_pos n with rfl | hn
  · decide
  · exact absurd h (head?_toDigits_ne hn)

/-- **The digits of an integer denote it.** -/
theorem exists_number_int (i : ℤ) :
    ∃ n : Number, n.chars = Numeral.integerDigits i ∧ n.value = .int i ∧ n.isInteger = true ∧
      n.whole.chars = Nat.toDigits 10 i.natAbs := by
  refine ⟨⟨decide (i < 0), Digits.ofNat i.natAbs, leading_toDigits i.natAbs, none, none⟩, ?_, ?_, rfl, rfl⟩
  · unfold Numeral.integerDigits
    by_cases hi : i < 0 <;> simp [hi, Number.chars, Number.tail, Digits.ofNat]
  · show Scalar.int _ = Scalar.int i
    congr 1
    have hvalue : digitsValue (Digits.ofNat i.natAbs).chars = i.natAbs := digitsValue_toDigits _
    simp only [Number.integer, hvalue, decide_eq_true_eq]
    split <;> omega

end Json

namespace Binary64

open Json

/-! ### The layout of digits -/

/-- A number of the grammar that spells given digits at a power of ten, with point or exponent and a sign in
front of every exponent. -/
structure Spelled (n : Number) (negative : Bool) (digits : ℕ) (scale : ℤ) : Prop where
  negative_eq : n.negative = negative
  isInteger_eq : n.isInteger = false
  signed : ∀ e, n.exponent = some e → e.sign.isSome = true
  value_eq : (digitsValue (n.whole.chars ++ n.placeDigits) : ℚ) * 10 ^ n.scale = digits * 10 ^ scale

/-- The digits of an exponent: two at least. -/
def exponentDigits (e : ℤ) : Digits :=
  { chars := if (digitChars e.natAbs).length < 2 then '0' :: digitChars e.natAbs else digitChars e.natAbs
    ne_nil := by
      split
      · simp
      · exact Nat.toDigits_ne_nil
    all_digits := by
      intro c hc
      split at hc
      · rcases List.mem_cons.1 hc with rfl | hc
        · decide
        · exact isDigit_of_mem_digits hc
      · exact isDigit_of_mem_digits hc }

theorem digitsValue_exponentDigits (e : ℤ) : digitsValue (exponentDigits e).chars = e.natAbs := by
  unfold exponentDigits
  dsimp only
  split
  · have hcons := digitsValue_append ['0'] (digitChars e.natAbs)
    have hzero : digitsValue ['0'] = 0 := rfl
    rw [hzero, Nat.mul_zero, Nat.zero_add] at hcons
    exact hcons.trans (digitsValue_toDigits _)
  · exact digitsValue_toDigits _

/-- An exponent as it is printed. -/
def exponentOfInt (e : ℤ) : Exponent := ⟨false, some (decide (e < 0)), exponentDigits e⟩

theorem exponentOfInt_chars (e : ℤ) : (exponentOfInt e).chars = exponentText e := by
  unfold exponentText
  by_cases he : e < 0 <;> simp [exponentOfInt, Exponent.chars, Exponent.signChars, exponentDigits, he]

theorem exponentOfInt_value (e : ℤ) : (exponentOfInt e).value = e := by
  have hvalue : digitsValue (exponentOfInt e).digits.chars = e.natAbs := digitsValue_exponentDigits e
  unfold Exponent.value
  rw [hvalue]
  by_cases he : e < 0
  · rw [if_pos (by simp [exponentOfInt, he])]
    omega
  · rw [if_neg (by simp [exponentOfInt, he])]
    omega

variable {digits : ℕ} {scale : ℤ}

theorem digitsValue_digitChars (digits : ℕ) : digitsValue (digitChars digits) = digits := digitsValue_toDigits digits

theorem isDigit_of_mem_digitChars {c : Char} (h : c ∈ digitChars digits) : c.isDigit = true := isDigit_of_mem_digits h

/-- A sign as it is printed. -/
def signChars (negative : Bool) : List Char := if negative then ['-'] else []

/-- Digits with an exponent, of which the first stands in front of the point. -/
theorem exists_number_scientific (negative : Bool) {d : Char} {more : List Char} {lead : ℤ}
    (hds : digitChars digits = d :: more) (hlead : lead = more.length + scale) :
    ∃ n : Number, n.chars = signChars negative
        ++ (d :: (if more = [] then [] else '.' :: more) ++ exponentText lead) ∧
      Spelled n negative digits scale := by
  have hdigit : ∀ c ∈ d :: more, c.isDigit = true := fun c hc => isDigit_of_mem_digitChars (hds ▸ hc)
  let whole : Digits := ⟨[d], by simp, fun c hc => hdigit c (by simp_all)⟩
  let places : Option Digits :=
    if h : more = [] then none else some ⟨more, h, fun c hc => hdigit c (List.mem_cons_of_mem _ hc)⟩
  have hleading : whole.chars.head? = some '0' → whole.chars = ['0'] := fun h => by simpa [whole] using h
  let n : Number := ⟨negative, whole, hleading, places, some (exponentOfInt lead)⟩
  have hplaces : n.placeDigits = more := by
    by_cases hmore : more = []
    · simp [n, Number.placeDigits, places, hmore]
    · simp [n, Number.placeDigits, places, hmore]
  have hscale : n.scale = scale := by
    have hexponent : n.scale = (exponentOfInt lead).value - n.placeDigits.length := rfl
    rw [hexponent, exponentOfInt_value, hplaces, hlead]
    omega
  refine ⟨n, ?_, rfl, by simp [n, Number.isInteger], ?_, ?_⟩
  · by_cases hmore : more = []
    · simp [n, Number.chars, Number.tail, whole, places, hmore, exponentOfInt_chars, signChars]
    · simp [n, Number.chars, Number.tail, whole, places, hmore, exponentOfInt_chars, signChars]
  · rintro e he
    cases he
    rfl
  · have hvalue : digitsValue (n.whole.chars ++ n.placeDigits) = digits := by
      rw [hplaces, show n.whole.chars ++ more = digitChars digits from hds.symm]
      exact digitsValue_digitChars digits
    rw [hvalue, hscale]

/-- Digits with a point and no exponent. -/
theorem exists_number_positional (negative : Bool) {whole places : List Char}
    (hwhole : whole ≠ []) (hplaces : places ≠ []) (hall : ∀ c ∈ whole ++ places, c.isDigit = true)
    (hleading : whole.head? = some '0' → whole = ['0'])
    (hvalue : (digitsValue (whole ++ places) : ℚ) * 10 ^ (-(places.length : ℤ)) = digits * 10 ^ scale) :
    ∃ n : Number, n.chars = signChars negative ++ (whole ++ '.' :: places) ∧ Spelled n negative digits scale := by
  let front : Digits := ⟨whole, hwhole, fun c hc => hall c (List.mem_append_left _ hc)⟩
  let back : Digits := ⟨places, hplaces, fun c hc => hall c (List.mem_append_right _ hc)⟩
  let n : Number := ⟨negative, front, hleading, some back, none⟩
  have hscale : n.scale = -(places.length : ℤ) := by simp [n, Number.scale, Number.placeDigits, back]
  refine ⟨n, ?_, rfl, rfl, ?_, ?_⟩
  · simp [n, Number.chars, Number.tail, front, back, signChars]
  · rintro e he
    cases he
  · rw [hscale]
    exact hvalue

/-- A number below one: its digits stand behind zeros. -/
theorem exists_number_fraction (negative : Bool) {zeros : ℕ}
    (hzeros : (zeros : ℤ) = -((digitChars digits).length + scale)) :
    ∃ n : Number, n.chars = signChars negative ++ ('0' :: '.' :: List.replicate zeros '0' ++ digitChars digits) ∧
      Spelled n negative digits scale := by
  have hnumber : ∃ n : Number, n.chars
      = signChars negative ++ (['0'] ++ '.' :: (List.replicate zeros '0' ++ digitChars digits)) ∧
        Spelled n negative digits scale := by
    refine exists_number_positional negative (by simp) (by simp [digitChars]) ?_ (by simp) ?_
    · intro c hc
      simp only [List.mem_append, List.mem_singleton] at hc
      rcases hc with rfl | hc | hc
      · decide
      · exact isDigit_of_mem_zeros hc
      · exact isDigit_of_mem_digitChars hc
    · have hvalue : digitsValue (['0'] ++ (List.replicate zeros '0' ++ digitChars digits)) = digits := by
        rw [digitsValue_append, digitsValue_append, digitsValue_zeros, digitsValue_digitChars]
        have hzero : digitsValue ['0'] = 0 := rfl
        rw [hzero]
        omega
      rw [hvalue, List.length_append, List.length_replicate]
      congr 2
      push_cast
      omega
  obtain ⟨n, hchars, hspelled⟩ := hnumber
  exact ⟨n, by simpa using hchars, hspelled⟩

/-- A whole number: its digits stand in front of zeros. -/
theorem exists_number_whole (negative : Bool) (hdigits : 0 < digits) (hscale : 0 ≤ scale) :
    ∃ n : Number, n.chars = signChars negative
        ++ (digitChars digits ++ List.replicate scale.toNat '0' ++ ['.', '0']) ∧
      Spelled n negative digits scale := by
  have hnumber : ∃ n : Number, n.chars
      = signChars negative ++ (digitChars digits ++ List.replicate scale.toNat '0' ++ '.' :: ['0']) ∧
        Spelled n negative digits scale := by
    refine exists_number_positional negative (by simp [digitChars]) (by simp) ?_ ?_ ?_
    · intro c hc
      simp only [List.mem_append, List.mem_singleton] at hc
      rcases hc with (hc | hc) | rfl
      · exact isDigit_of_mem_digitChars hc
      · exact isDigit_of_mem_zeros hc
      · decide
    · intro hhead
      have hne : digitChars digits ≠ [] := Nat.toDigits_ne_nil
      rw [List.head?_append_of_ne_nil _ hne] at hhead
      exact absurd hhead (head?_toDigits_ne hdigits)
    · have hvalue : digitsValue (digitChars digits ++ List.replicate scale.toNat '0' ++ ['0'])
          = 10 * (10 ^ scale.toNat * digits) := by
        rw [digitsValue_append, digitsValue_append, digitsValue_zeros, digitsValue_digitChars,
          List.length_replicate]
        rfl
      have hpower : (10 : ℚ) ^ scale = 10 ^ scale.toNat := by
        rw [← zpow_natCast, Int.toNat_of_nonneg hscale]
      rw [hvalue, hpower]
      push_cast
      norm_num
      ring
  obtain ⟨n, hchars, hspelled⟩ := hnumber
  exact ⟨n, by simpa using hchars, hspelled⟩

/-- A number with digits on either side of the point. -/
theorem exists_number_split (negative : Bool) (hdigits : 0 < digits) {point : ℕ} (hpoint : 0 < point)
    (hlt : point < (digitChars digits).length) (hscale : (point : ℤ) = (digitChars digits).length + scale) :
    ∃ n : Number, n.chars = signChars negative
        ++ ((digitChars digits).take point ++ '.' :: (digitChars digits).drop point) ∧
      Spelled n negative digits scale := by
  have hne : (digitChars digits).take point ≠ [] := by
    intro hnil
    have hlength := congrArg List.length hnil
    rw [List.length_take, List.length_nil] at hlength
    omega
  refine exists_number_positional negative hne ?_ ?_ ?_ ?_
  · intro hnil
    have hlength := congrArg List.length hnil
    rw [List.length_drop, List.length_nil] at hlength
    omega
  · intro c hc
    rw [List.take_append_drop] at hc
    exact isDigit_of_mem_digitChars hc
  · intro hhead
    rw [List.head?_take, if_neg (by omega)] at hhead
    exact absurd hhead (head?_toDigits_ne hdigits)
  · rw [List.take_append_drop, digitsValue_digitChars, List.length_drop]
    congr 2
    omega

/-- **The digits of a binary number, as they are laid out, spell it.** -/
theorem exists_number_layout (negative : Bool) (hdigits : 0 < digits) (scale : ℤ) :
    ∃ n : Number, n.chars = signChars negative ++ layout digits scale ∧ Spelled n negative digits scale := by
  have hne : digitChars digits ≠ [] := Nat.toDigits_ne_nil
  have hlength : 0 < (digitChars digits).length := List.length_pos_iff.2 hne
  unfold layout
  dsimp only
  generalize hpoint : ((digitChars digits).length : ℤ) + scale = point
  by_cases hlead : point - 1 < -4 ∨ 16 ≤ point - 1
  · rw [if_pos hlead]
    cases hds : digitChars digits with
    | nil => exact absurd hds hne
    | cons d more =>
      have hscale : point - 1 = more.length + scale := by
        rw [hds, List.length_cons] at hpoint
        push_cast at hpoint
        omega
      obtain ⟨n, hchars, hspelled⟩ := exists_number_scientific negative hds hscale
      refine ⟨n, ?_, hspelled⟩
      cases more with
      | nil => simpa using hchars
      | cons e more => simpa using hchars
  · rw [if_neg hlead]
    by_cases hsmall : point ≤ 0
    · rw [if_pos hsmall]
      exact exists_number_fraction negative (by omega)
    · rw [if_neg hsmall]
      by_cases hwhole : 0 ≤ scale
      · rw [if_pos hwhole]
        exact exists_number_whole negative hdigits hwhole
      · rw [if_neg hwhole]
        exact exists_number_split negative hdigits (by omega) (by omega) (by omega)

/-- The digits chosen for a number that is not zero are not zero. -/
theorem shortest_pos {biased : Fin 2047} {fraction : Fin leadingBit} (hm : 0 < significandOf biased fraction) :
    0 < (shortest biased fraction).1 := by
  have hlow := (shortest_contains hm).low_le
  rw [interval_low hm] at hlow
  have hmPos : (1 : ℚ) ≤ significandOf biased fraction := by exact_mod_cast hm
  have hunit : (0 : ℚ) < 2 ^ (interval biased fraction).unit := by positivity
  rcases Nat.eq_zero_or_pos (shortest biased fraction).1 with hzero | hpos
  · rw [hzero, Nat.cast_zero, zero_mul] at hlow
    have hfactor : (0 : ℚ) < if fraction.val = 0 ∧ biased.val > 1 then 4 * (significandOf biased fraction : ℚ) - 1
        else 4 * significandOf biased fraction - 2 := by
      split <;> linarith
    exact absurd hlow (not_le.2 (mul_pos hfactor hunit))
  · exact hpos

theorem eq_zero_of_significandOf {biased : Fin 2047} {fraction : Fin leadingBit}
    (hm : significandOf biased fraction = 0) : biased = 0 ∧ fraction = 0 := by
  unfold significandOf at hm
  split at hm
  · next hb => exact ⟨Fin.ext hb, Fin.ext hm⟩
  · have hbit := leadingBit_eq
    omega

end Binary64

namespace Json

/-- **The text of a finite binary number denotes it**, with a point or an exponent, and with a sign in front of
every exponent. -/
theorem exists_number_float (negative : Bool) (biased : Fin 2047) (fraction : Fin leadingBit) :
    ∃ n : Number, n.chars = (floatText (.finite negative biased fraction)).toList ∧
      n.value = .float (.finite negative biased fraction) ∧ n.isInteger = false ∧
      ∀ e, n.exponent = some e → e.sign.isSome = true := by
  by_cases hm : Binary64.significandOf biased fraction = 0
  · obtain ⟨rfl, rfl⟩ := Binary64.eq_zero_of_significandOf hm
    let zero : Digits := ⟨['0'], by simp, List.forall_mem_singleton.2 rfl⟩
    refine ⟨⟨negative, zero, fun _ => rfl, some zero, none⟩, ?_, ?_, rfl, ?_⟩
    · cases negative <;> rfl
    · cases negative <;> rfl
    · rintro e he
      cases he
  · have hpos : 0 < Binary64.significandOf biased fraction := Nat.pos_of_ne_zero hm
    obtain ⟨n, hchars, hspelled⟩ := Binary64.exists_number_layout negative
      (Binary64.shortest_pos hpos) (Binary64.shortest biased fraction).2
    have htext : (floatText (.finite negative biased fraction)).toList = Binary64.signChars negative
        ++ Binary64.layout (Binary64.shortest biased fraction).1 (Binary64.shortest biased fraction).2 := by
      simp only [floatText, Binary64.text, hm, if_false, String.toList_ofList]
      cases negative <;> rfl
    have hnearest : n.nearest = .finite negative biased fraction := by
      rw [Number.nearest, hspelled.negative_eq]
      exact Binary64.ofDecimal_shortest negative hpos hspelled.value_eq
    refine ⟨n, hchars.trans htext.symm, ?_, hspelled.isInteger_eq, hspelled.signed⟩
    rw [Number.value, hspelled.isInteger_eq, hnearest]
    rfl

end Json

end RouteDoc
