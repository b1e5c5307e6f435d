import RouteDoc.Proofs.Yaml.Looks
import RouteDoc.Proofs.Yaml.Nodes
import RouteDoc.Yaml.Scalar

/-!
# The values of JSON scalars

Numbers that look like numbers are read as the numbers that they are, integers with too many digits apart, and
words as what they denote.

* `integerOf_number`, `floatOf_number` — the two ways of reading a number;
* `scalarValue_number`, `scalarValue_word` — the value of a number and of a word by its look.
-/

namespace RouteDoc.Json

open Yaml Yaml.Tag

/-! ### Digits -/

/-- A character of the first code page that is no blank. -/
def isVisible (c : Char) : Bool := c.toNat < 128 && !Numeral.isSpace c

theorem core_eq {cs : List Char} (h : ∀ c ∈ cs, isVisible c = true) : Numeral.core cs = cs := by
  have hfacts : ∀ c ∈ cs, c.toNat < 128 ∧ Numeral.isSpace c = false := by
    intro c hc
    simpa [isVisible] using h c hc
  have hmap : cs.map Numeral.plainChar = cs := by
    refine (List.map_congr_left fun c hc => ?_).trans (List.map_id cs)
    rw [Numeral.plainChar, if_pos (hfacts c hc).1]
    rfl
  have hdrop : ∀ ds : List Char, (∀ c ∈ ds, c ∈ cs) → ds.dropWhile Numeral.isSpace = ds := by
    intro ds hds
    cases ds with
    | nil => rfl
    | cons d ds =>
      rw [List.dropWhile_cons, (hfacts d (hds d (List.mem_cons_self ..))).2, if_neg Bool.false_ne_true]
  rw [Numeral.core, hmap, hdrop cs fun _ hc => hc, hdrop _ fun _ hc => List.mem_reverse.1 hc, List.reverse_reverse]

/-- The value of a digit. -/
def digitOf (c : Char) : Nat := c.toNat - '0'.toNat

theorem number_digits (cs : List Char) : Numeral.number 10 (cs.map digitOf) = digitsValue cs := by
  rw [Numeral.number, List.foldl_map]
  rfl

theorem isDigit_bounds {c : Char} (h : c.isDigit = true) : 48 ≤ c.toNat ∧ c.toNat ≤ 57 := by
  simpa [Char.isDigit_iff_toNat] using h

theorem digitIn?_digit {c : Char} (h : c.isDigit = true) : Numeral.digitIn? 10 c = some (digitOf c) := by
  have hbounds := isDigit_bounds h
  have hlt : digitOf c < 10 := by
    show c.toNat - 48 < 10
    omega
  rw [Numeral.digitIn?, if_pos h]
  show (some (digitOf c)).filter _ = _
  rw [Option.filter_some, if_pos (by simpa using hlt)]

theorem spanDigits_integer (due : Bool) {cs : List Char} (h : ∀ c ∈ cs, c.isDigit = true)
    (hdue : due = true → cs ≠ []) : Numeral.spanDigits 10 due cs = some (cs.map digitOf, []) := by
  induction cs generalizing due with
  | nil =>
    cases due with
    | false => rfl
    | true => exact absurd rfl (hdue rfl)
  | cons c cs ih =>
    have hc : c.isDigit = true := h c (List.mem_cons_self ..)
    have hline : (c == '_') = false := by
      rw [beq_eq_false_iff_ne]
      rintro rfl
      exact Bool.noConfusion hc
    rw [Numeral.spanDigits, hline, if_neg Bool.false_ne_true, digitIn?_digit hc]
    simp only
    rw [ih false (fun d hd => h d (List.mem_cons_of_mem _ hd)) (by simp)]
    rfl

theorem isVisible_of_isDigit {c : Char} (h : c.isDigit = true) : isVisible c = true := by
  have hbounds := isDigit_bounds h
  have hspace : Numeral.isSpace c = false := by
    rw [Numeral.isSpace, Bool.or_eq_false_iff, Bool.and_eq_false_iff]
    refine ⟨?_, .inr ?_⟩
    · rw [beq_eq_false_iff_ne]
      rintro rfl
      exact Bool.noConfusion h
    · rw [decide_eq_false_iff_not]
      intro hle
      have hvalue : c.toNat ≤ 13 := hle
      omega
  rw [isVisible, hspace, decide_eq_true (by omega)]
  rfl

theorem Number.isVisible_of_mem (n : Number) {c : Char} (h : c ∈ n.chars) : isVisible c = true := by
  rcases n.char_cases h with hc | hc
  · exact isVisible_of_isDigit hc
  · simp only [List.mem_cons, List.not_mem_nil, or_false] at hc
    rcases hc with rfl | rfl | rfl | rfl | rfl <;> rfl

theorem splitSign_digit {c : Char} (cs : List Char) (h : c.isDigit = true) :
    Numeral.splitSign (c :: cs) = (false, c :: cs) := by
  rw [Numeral.splitSign]
  · rintro rest ⟨⟩
    exact Bool.noConfusion h
  · rintro rest ⟨⟩
    exact Bool.noConfusion h

/-! ### Integers -/

/-- Digits without a zero at the front are an integer, when there are not too many. -/
theorem readInteger_digits {c : Char} {cs : List Char} (h : ∀ d ∈ c :: cs, d.isDigit = true) (hzero : c ≠ '0') :
    Numeral.readInteger 10 (c :: cs) =
      if (c :: cs).length ≤ Numeral.digitLimit then .ok (digitsValue (c :: cs) : Int)
      else .error (.longInteger (c :: cs).length) := by
  have hcore : Numeral.core (c :: cs) = c :: cs := core_eq fun d hd => isVisible_of_isDigit (h d hd)
  have hmark : Numeral.dropMark 10 (c :: cs) = c :: cs := by
    rw [Numeral.dropMark]
    rintro d rest ⟨⟩
    exact hzero rfl
  have hspan := spanDigits_integer true h fun _ => List.cons_ne_nil c cs
  have hlimited : Numeral.isUnlimited 10 = false := rfl
  have hten : ((10 : Nat) = 0) = False := eq_false (by decide)
  simp only [Numeral.readInteger, hcore, splitSign_digit cs (h c (List.mem_cons_self ..)), hten, if_false, hmark,
    hspan, hlimited, Bool.not_false, Bool.true_and, decide_eq_true_eq, List.length_map, number_digits,
    List.isEmpty_nil, Bool.not_true, Bool.false_eq_true, decide_false, Bool.false_and]
  by_cases hlength : (c :: cs).length ≤ Numeral.digitLimit
  · rw [if_pos hlength, if_neg (by omega)]
    rfl
  · rw [if_neg hlength, if_pos (by omega)]

theorem withoutLines_number (n : Number) : withoutLines (String.ofList n.chars) = n.chars := by
  rw [withoutLines, String.toList_ofList, List.filter_eq_self]
  intro c hc
  exact bne_iff_ne.2 (n.ne_of_mem hc rfl (by decide))

section IntegerOf

variable {s : String} {text : List Char} {negative : Bool}

theorem integerOf_zero (hs : withoutLines s = text) (h : Numeral.splitSign text = (negative, ['0'])) :
    integerOf s = .ok 0 := by
  rw [integerOf, hs]
  split
  · rw [Numeral.splitSign] at h
    · cases h
    · rintro rest ⟨⟩
    · rintro rest ⟨⟩
  · rw [h]
    cases negative <;> rfl

theorem integerOf_decimal {c : Char} {cs : List Char} (hs : withoutLines s = text)
    (h : Numeral.splitSign text = (negative, c :: cs)) (hzero : c ≠ '0') (hcolon : (c :: cs).contains ':' = false) :
    integerOf s = Numeral.signed negative <$> Numeral.readInteger 10 (c :: cs) := by
  rw [integerOf, hs]
  split
  · rw [Numeral.splitSign] at h
    · cases h
    · rintro rest ⟨⟩
    · rintro rest ⟨⟩
  · rw [h]
    simp only [hcolon]
    split
    · next heq => cases heq
    · next heq => cases heq; exact absurd rfl hzero
    · next heq => cases heq; exact absurd rfl hzero
    · next heq => cases heq; exact absurd rfl hzero
    · next heq => cases heq; exact absurd rfl hzero
    · rfl

end IntegerOf

theorem Number.tail_of_isInteger (n : Number) (h : n.isInteger = true) : n.tail = [] := by
  rw [isInteger, Bool.and_eq_true, Option.isNone_iff_eq_none, Option.isNone_iff_eq_none] at h
  rw [tail, h.1, h.2]
  rfl

/-- The integer of a number without point and exponent. -/
theorem integerOf_number (n : Number) (h : n.isInteger = true) :
    Outcome (integerOf (String.ofList n.chars)) n.fits n.integer := by
  obtain ⟨c, cs, hwhole, hunsigned, hc⟩ := n.unsigned_cons
  rw [n.tail_of_isInteger h, List.append_nil] at hunsigned
  have hsign : Numeral.splitSign n.chars = (n.negative, c :: cs) := by rw [n.splitSign_chars, hunsigned]
  have hfits : n.fits = decide ((c :: cs).length ≤ Numeral.digitLimit) := by
    rw [Number.fits, h, hwhole]
    rfl
  by_cases hzero : c = '0'
  · subst hzero
    obtain rfl := n.eq_nil_of_zero hwhole
    rw [hfits, Outcome, integerOf_zero (withoutLines_number n) hsign, Number.integer, hwhole]
    cases n.negative <;> rfl
  · have hcolon : (c :: cs).contains ':' = false := by
      rw [List.contains_eq_mem, decide_eq_false_iff_not]
      intro hmem
      exact n.ne_of_mem (n.mem_of_unsigned (hunsigned ▸ hmem)) rfl (by decide) rfl
    have hdigits : ∀ d ∈ c :: cs, d.isDigit = true := fun d hd => n.whole.all_digits d (hwhole ▸ hd)
    rw [hfits, Outcome, integerOf_decimal (withoutLines_number n) hsign hzero hcolon,
      readInteger_digits hdigits hzero, Number.integer, hwhole]
    by_cases hlength : (c :: cs).length ≤ Numeral.digitLimit
    · rw [decide_eq_true hlength, if_pos rfl, if_pos hlength]
      cases n.negative <;> rfl
    · rw [decide_eq_false hlength, if_neg Bool.false_ne_true, if_neg hlength]
      exact ⟨_, rfl⟩

/-! ### Numbers with a point -/

/-- The number with the small mark of an exponent. -/
def Number.lowered (n : Number) : Number :=
  { n with exponent := n.exponent.map fun e => { e with capital := false } }

theorem Number.nearest_lowered (n : Number) : n.lowered.nearest = n.nearest := by
  obtain ⟨negative, whole, leading, places, exponent⟩ := n
  cases exponent <;> rfl

theorem lowerFrom_eq (passed : List Char) {cs : List Char} (h : ∀ c ∈ cs, isVisible c = true) :
    Text.lowerFrom passed cs = cs.map Char.toLower := by
  induction cs generalizing passed with
  | nil => rfl
  | cons c cs ih =>
    have hc : c.toNat < 128 := by
      have hvisible := h c (List.mem_cons_self ..)
      rw [isVisible, Bool.and_eq_true, decide_eq_true_eq] at hvisible
      exact hvisible.1
    rw [Text.lowerFrom, ih _ fun d hd => h d (List.mem_cons_of_mem _ hd)]
    simp only [hc, if_true]
    rfl

theorem toLower_digit {c : Char} (h : c.isDigit = true) : c.toLower = c := by
  have hbounds := isDigit_bounds h
  refine dif_neg fun hupper => ?_
  have hle : 65 ≤ c.toNat := hupper.1
  omega

theorem map_toLower_digits (ds : Digits) : ds.chars.map Char.toLower = ds.chars := by
  exact (List.map_congr_left fun c hc => toLower_digit (ds.all_digits c hc)).trans (List.map_id ds.chars)

theorem Number.map_toLower (n : Number) : n.chars.map Char.toLower = n.lowered.chars := by
  have hsign : ∀ negative : Bool, (if negative then ['-'] else []).map Char.toLower
      = if negative then ['-'] else [] := fun negative => by cases negative <;> rfl
  have hplaces : ((n.places.map fun ds => '.' :: ds.chars).getD []).map Char.toLower
      = (n.places.map fun ds => '.' :: ds.chars).getD [] := by
    cases n.places with
    | none => rfl
    | some ds =>
      show '.' :: ds.chars.map Char.toLower = '.' :: ds.chars
      rw [map_toLower_digits]
  have hexponent : ((n.exponent.map Exponent.chars).getD []).map Char.toLower
      = (n.lowered.exponent.map Exponent.chars).getD [] := by
    rw [lowered]
    cases n.exponent with
    | none => rfl
    | some e =>
      obtain ⟨capital, sign, digits⟩ := e
      show (Exponent.chars _).map Char.toLower = 'e' :: (Exponent.signChars sign ++ digits.chars)
      rw [Exponent.chars, List.map_cons, List.map_append, map_toLower_digits]
      cases capital <;> cases sign with
      | none => rfl
      | some minus => cases minus <;> rfl
  rw [chars, tail, List.map_append, List.map_append, List.map_append, hsign, map_toLower_digits, hplaces, hexponent]
  rfl

theorem lower_number (n : Number) : Text.lower (String.ofList n.chars) = String.ofList n.lowered.chars := by
  rw [Text.lower, String.toList_ofList, lowerFrom_eq [] fun c hc => n.isVisible_of_mem hc, n.map_toLower]

theorem numeralWithoutLines_eq {before : Char} {cs : List Char} (hbefore : before ≠ '_') (h : '_' ∉ cs) :
    Numeral.withoutLines before cs = some cs := by
  have hline : (before == '_') = false := beq_eq_false_iff_ne.2 hbefore
  induction cs generalizing before with
  | nil => rw [Numeral.withoutLines, hline, if_neg Bool.false_ne_true]
  | cons c cs ih =>
    have hc : c ≠ '_' := fun heq => h (heq ▸ List.mem_cons_self ..)
    have hc' : (c == '_') = false := beq_eq_false_iff_ne.2 hc
    rw [Numeral.withoutLines, hc', if_neg Bool.false_ne_true, hline, Bool.false_and, if_neg Bool.false_ne_true,
      ih hc (fun hmem => h (List.mem_cons_of_mem _ hmem)) hc']
    rfl

theorem spanDecimals_digits (ds : Digits) {cs : List Char} (h : ∀ c, cs.head? = some c → c.isDigit = false) :
    Numeral.spanDecimals (ds.chars ++ cs) = (ds.chars.map digitOf, cs) := by
  have hspan := spanDigits_digits ds h
  rw [spanDigits, Prod.mk.injEq] at hspan
  rw [Numeral.spanDecimals, hspan.1, hspan.2]
  rfl

theorem spanScale_exponent (exponent : Option Exponent) :
    Numeral.spanScale ((exponent.map Exponent.chars).getD []) = ((exponent.map Exponent.value).getD 0, []) := by
  cases exponent with
  | none => rfl
  | some e =>
    obtain ⟨m, hm, hchars⟩ := exponentMark_facts e
    obtain ⟨c, cs, hdigits, hc⟩ := e.digits.exists_cons
    have hsign : Numeral.splitSign (Exponent.signChars e.sign ++ e.digits.chars)
        = (e.sign == some true, e.digits.chars) := by
      cases e.sign with
      | none =>
        show Numeral.splitSign e.digits.chars = _
        rw [hdigits, splitSign_digit cs hc]
        rfl
      | some minus => cases minus <;> rfl
    have hspan : Numeral.spanDecimals e.digits.chars = (e.digits.chars.map digitOf, []) := by
      simpa using spanDecimals_digits e.digits (show ∀ c : Char, [].head? = some c → c.isDigit = false by simp)
    have hmark : (m == 'e' || m == 'E') = true := by
      rcases hm with rfl | rfl <;> rfl
    show Numeral.spanScale e.chars = (e.value, [])
    rw [hchars, Numeral.spanScale, hmark, if_pos rfl, hsign]
    rw [hdigits] at hspan ⊢
    simp only [hspan, List.map_cons]
    rw [← List.map_cons, number_digits, Exponent.value, hdigits]
    cases e.sign with
    | none => rfl
    | some minus => cases minus <;> rfl

/-- The first character of a word behind a digit is not found. -/
theorem afterWord?_digit {c d : Char} (cs ds : List Char) (hc : c.isDigit = true) (hd : d.isDigit = false) :
    Numeral.afterWord? (d :: ds) (c :: cs) = none := by
  rw [Numeral.afterWord?, List.length_cons, List.take_succ_cons, List.map_cons, toLower_digit hc, if_neg]
  rw [beq_iff_eq]
  intro heq
  rw [← (List.cons.inj heq).1, hc] at hd
  exact Bool.noConfusion hd

theorem spanDecimal_eq {negative : Bool} {cs rest rest' : List Char} {whole places : List Nat} {scale : Int}
    (hwhole : Numeral.spanDecimals cs = (whole, rest)) (hne : whole.isEmpty = false)
    (hplaces : (∃ after, rest = '.' :: after ∧ Numeral.spanDecimals after = (places, rest'))
      ∨ rest.head? ≠ some '.' ∧ places = [] ∧ rest' = rest)
    (hscale : Numeral.spanScale rest' = (scale, [])) : Numeral.spanDecimal negative cs =
      some (Binary64.ofDecimal negative (Numeral.number 10 (whole ++ places)) (scale - places.length), []) := by
  rw [Numeral.spanDecimal, hwhole]
  rcases hplaces with ⟨after, rfl, hafter⟩ | ⟨hpoint, rfl, rfl⟩
  · simp only [hafter, hne, hscale, Bool.false_and, Bool.false_eq_true, if_false]
  · simp only
    split
    · exact absurd rfl hpoint
    · simp only [hne, hscale, Bool.false_and, Bool.false_eq_true, if_false]

/-- The number that stands behind the sign. -/
theorem spanFloat_number (n : Number) : Numeral.spanFloat n.unsigned =
    some (Binary64.ofDecimal false (digitsValue (n.whole.chars ++ n.placeDigits)) n.scale, []) := by
  obtain ⟨c, cs, hwhole, hunsigned, hc⟩ := n.unsigned_cons
  have hsign : Numeral.splitSign n.unsigned = (false, n.unsigned) := by rw [hunsigned, splitSign_digit _ hc]
  have hwords : Numeral.afterWord? "infinity".toList n.unsigned = none
      ∧ Numeral.afterWord? "inf".toList n.unsigned = none ∧ Numeral.afterWord? "nan".toList n.unsigned = none := by
    rw [hunsigned]
    exact ⟨afterWord?_digit _ _ hc rfl, afterWord?_digit _ _ hc rfl, afterWord?_digit _ _ hc rfl⟩
  have hspan : Numeral.spanDecimals n.unsigned = (n.whole.chars.map digitOf, n.tail) :=
    spanDecimals_digits n.whole fun d hd => n.tail_head ends_nil (by rwa [List.append_nil])
  have hne : (n.whole.chars.map digitOf).isEmpty = false := by
    rw [hwhole]
    rfl
  have hplaces : (∃ after, n.tail = '.' :: after ∧ Numeral.spanDecimals after
        = (n.placeDigits.map digitOf, (n.exponent.map Exponent.chars).getD []))
      ∨ n.tail.head? ≠ some '.' ∧ n.placeDigits.map digitOf = []
        ∧ (n.exponent.map Exponent.chars).getD [] = n.tail := by
    rcases n.tail_cases with ⟨htail, hnone, hnone'⟩ | ⟨ds, hsome, htail⟩ | ⟨hnone, e, hsome, htail⟩
    · exact .inr ⟨by rw [htail]; simp, by rw [Number.placeDigits, hnone]; rfl, by rw [htail, hnone']; rfl⟩
    · refine .inl ⟨_, htail, ?_⟩
      rw [Number.placeDigits, hsome]
      exact spanDecimals_digits ds fun d hd => (n.exponent_head ends_nil (by rwa [List.append_nil])).1
    · obtain ⟨m, hm, hchars⟩ := exponentMark_facts e
      refine .inr ⟨?_, by rw [Number.placeDigits, hnone]; rfl, by rw [htail, hsome]; rfl⟩
      rw [htail, hchars]
      rcases hm with rfl | rfl <;> simp
  rw [Numeral.spanFloat, hsign]
  simp only [hwords]
  rw [spanDecimal_eq hspan hne hplaces (spanScale_exponent n.exponent), ← List.map_append, number_digits,
    List.length_map]
  rfl

theorem readFloat_number (n : Number) : Numeral.readFloat n.unsigned =
    .ok (Binary64.ofDecimal false (digitsValue (n.whole.chars ++ n.placeDigits)) n.scale) := by
  have hcore : Numeral.core n.unsigned = n.unsigned :=
    core_eq fun c hc => n.isVisible_of_mem (n.mem_of_unsigned hc)
  have hlines : Numeral.withoutLines ' ' n.unsigned = some n.unsigned :=
    numeralWithoutLines_eq (by decide) fun h => n.ne_of_mem (n.mem_of_unsigned h) rfl (by decide) rfl
  rw [Numeral.readFloat, hcore, hlines, Option.bind_some, spanFloat_number]

/-! ### The sign of a number -/

theorem neg_assemble (significand : Nat) (exponent : Int) :
    (Binary64.assemble false significand exponent).neg = Binary64.assemble true significand exponent := by
  rw [Binary64.assemble, Binary64.assemble]
  split
  · rfl
  · split <;> rfl

theorem neg_ofRatio (num den : Nat) : (Binary64.ofRatio false num den).neg = Binary64.ofRatio true num den := by
  rw [Binary64.ofRatio, Binary64.ofRatio]
  split
  · rfl
  · simp only [apply_ite Binary64.neg, neg_assemble]

theorem neg_ofDecimal (digits : Nat) (scale : Int) :
    (Binary64.ofDecimal false digits scale).neg = Binary64.ofDecimal true digits scale := by
  rw [Binary64.ofDecimal, Binary64.ofDecimal]
  split
  · rfl
  · split
    · rfl
    · split
      · rfl
      · split <;> exact neg_ofRatio _ _

/-- A number with the look of one with a point is read as the number nearest to it. -/
theorem floatOf_number (n : Number) : floatOf (String.ofList n.chars) = .ok n.nearest := by
  have hlines : (Text.lower (String.ofList (withoutLines (String.ofList n.chars)))).toList = n.lowered.chars := by
    rw [withoutLines_number, lower_number, String.toList_ofList]
  have hword : ∀ w : String, w.toList.all (fun c => !c.isDigit) = true → String.ofList n.lowered.unsigned ≠ w := by
    rintro w hw rfl
    obtain ⟨c, cs, -, hunsigned, hc⟩ := n.lowered.unsigned_cons
    rw [hunsigned, String.toList_ofList, List.all_cons, hc] at hw
    exact Bool.noConfusion hw
  have hcolon : n.lowered.unsigned.contains ':' = false := by
    rw [List.contains_eq_mem, decide_eq_false_iff_not]
    intro hmem
    exact n.lowered.ne_of_mem (n.lowered.mem_of_unsigned hmem) rfl (by decide) rfl
  rw [floatOf, hlines]
  split
  · next hnil =>
    obtain ⟨c, hmem, -⟩ := n.lowered.exists_digit
    rw [hnil] at hmem
    cases hmem
  · rw [n.lowered.splitSign_chars]
    simp only
    split
    · next heq => exact absurd heq (hword _ rfl)
    · next heq => exact absurd heq (hword _ rfl)
    · rw [hcolon, if_neg Bool.false_ne_true, readFloat_number, ← n.nearest_lowered, Number.nearest]
      cases n.lowered.negative with
      | false => rfl
      | true => exact congrArg Except.ok (neg_ofDecimal _ _)

/-! ### Words and numbers -/

/-- **A number is read as what it looks like**, an integer only when it has few enough digits. -/
theorem scalarValue_number (n : Number) :
    Outcome ((Yaml.Tag.ofPlain (String.ofList n.chars)).scalarValue (String.ofList n.chars)) n.fits n.reread := by
  rw [ofPlain_number, Number.reread]
  cases hinteger : n.isInteger with
  | true => exact (integerOf_number n hinteger).then rfl
  | false =>
    have hfits : n.fits = true := by rw [Number.fits, hinteger]; rfl
    rw [hfits]
    cases n.hasFloatLook with
    | true =>
      show Scalar.float <$> floatOf (String.ofList n.chars) = _
      rw [floatOf_number]
      rfl
    | false => rfl

/-- **A word of the grammar is read as what it denotes.** -/
theorem scalarValue_word {w : Word} (h : w.isStrict = true) :
    (Yaml.Tag.ofPlain (String.ofList w.chars)).scalarValue (String.ofList w.chars) = .ok w.value := by
  rw [ofPlain_word h]
  cases w with
  | null => rfl
  | truth b =>
    have hlower : Text.lower (String.ofList (Word.truth b).chars) = if b then "true" else "false" := by
      cases b <;> decide +kernel
    show Scalar.bool <$> truthOf _ = _
    rw [truthOf, hlower]
    cases b <;> rfl
  | nan => cases h
  | infinity negative => cases h

end RouteDoc.Json
