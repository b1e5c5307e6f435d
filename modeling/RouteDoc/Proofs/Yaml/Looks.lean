import RouteDoc.Proofs.Json.Reading
import RouteDoc.Proofs.Yaml.Rereading
import RouteDoc.Yaml.Tag

/-!
# The look of JSON scalars

What YAML takes the words and numbers of JSON for.  Words are what they are in JSON, and so are numbers without
point and exponent; a number with an exponent has the look of a number only when there is a point in front of
the exponent and a sign in it.

* `looksFloat_number`, `looksInt_number`, `looksTimestamp_number` — the looks of numbers;
* `ofPlain_number`, `ofPlain_word` — the tags of numbers and words.
-/

namespace RouteDoc.Json

open Yaml Yaml.Tag

/-! ### The characters of numbers -/

namespace Number

variable (n : Number)

/-- The text behind the sign. -/
def unsigned : List Char := n.whole.chars ++ n.tail

theorem chars_eq : n.chars = (if n.negative then ['-'] else []) ++ n.unsigned := rfl

theorem unsigned_cons : ∃ c cs, n.whole.chars = c :: cs ∧ n.unsigned = c :: (cs ++ n.tail) ∧ c.isDigit = true := by
  obtain ⟨c, cs, hwhole, hc⟩ := n.whole.exists_cons
  exact ⟨c, cs, hwhole, by rw [unsigned, hwhole]; rfl, hc⟩

/-- A zero at the front of the integer part stands alone. -/
theorem eq_nil_of_zero {cs : List Char} (h : n.whole.chars = '0' :: cs) : cs = [] := by
  have hleading := n.leading (by rw [h]; rfl)
  rw [h] at hleading
  exact (List.cons.inj hleading).2

theorem exists_digit : ∃ c ∈ n.chars, c.isDigit = true := by
  obtain ⟨c, cs, -, hunsigned, hc⟩ := n.unsigned_cons
  exact ⟨c, by rw [chars_eq, hunsigned]; simp, hc⟩

/-- A word without digits is not the text of a number. -/
theorem ne_word {w : String} (hw : w.toList.all (fun c => !c.isDigit) = true) : String.ofList n.chars ≠ w := by
  rintro rfl
  obtain ⟨c, hmem, hc⟩ := n.exists_digit
  rw [String.toList_ofList] at hw
  have hword := List.all_eq_true.1 hw c hmem
  rw [hc] at hword
  exact Bool.noConfusion hword

theorem notMem_words {ws : List String} (h : ws.all (fun w => w.toList.all fun c => !c.isDigit) = true) :
    ws.contains (String.ofList n.chars) = false := by
  rw [List.contains_eq_mem, decide_eq_false_iff_not]
  intro hmem
  exact n.ne_word (List.all_eq_true.1 h _ hmem) rfl

/-- Characters that numbers are not made of. -/
theorem ne_of_mem {c d : Char} (h : c ∈ n.chars) (hd : d.isDigit = false) (hd' : d ∉ ['-', '+', '.', 'e', 'E']) :
    c ≠ d := by
  rintro rfl
  rcases n.char_cases h with hc | hc
  · rw [hd] at hc
    exact Bool.noConfusion hc
  · exact hd' hc

theorem mem_of_unsigned {c : Char} (h : c ∈ n.unsigned) : c ∈ n.chars :=
  List.mem_append_right _ h

theorem afterSign_chars : afterSign n.chars = n.unsigned := by
  obtain ⟨c, cs, -, hunsigned, hc⟩ := n.unsigned_cons
  rw [chars_eq, hunsigned]
  cases n.negative with
  | true => rfl
  | false =>
    show afterSign (c :: _) = _
    rw [afterSign]
    · rintro rest ⟨⟩
      exact Bool.noConfusion hc
    · rintro rest ⟨⟩
      exact Bool.noConfusion hc

theorem splitSign_chars : Numeral.splitSign n.chars = (n.negative, n.unsigned) := by
  obtain ⟨c, cs, -, hunsigned, hc⟩ := n.unsigned_cons
  rw [chars_eq, hunsigned]
  cases n.negative with
  | true => rfl
  | false =>
    show Numeral.splitSign (c :: _) = _
    rw [Numeral.splitSign]
    · rintro rest ⟨⟩
      exact Bool.noConfusion hc
    · rintro rest ⟨⟩
      exact Bool.noConfusion hc

/-- Behind the integer part stands nothing, a point or the mark of an exponent. -/
theorem tail_cases : n.tail = [] ∧ n.places = none ∧ n.exponent = none
    ∨ (∃ ds, n.places = some ds ∧ n.tail = '.' :: (ds.chars ++ (n.exponent.map Exponent.chars).getD []))
    ∨ n.places = none ∧ ∃ e, n.exponent = some e ∧ n.tail = e.chars := by
  cases hp : n.places with
  | some ds => exact .inr (.inl ⟨ds, rfl, by rw [tail, hp]; rfl⟩)
  | none =>
    cases he : n.exponent with
    | none => exact .inl ⟨by rw [tail, hp, he]; rfl, rfl, rfl⟩
    | some e => exact .inr (.inr ⟨rfl, e, rfl, by rw [tail, hp, he]; rfl⟩)

end Number

/-! ### Looks -/

theorem dropWhile_digits {cs : List Char} (hcs : ∀ c ∈ cs, c.isDigit = true) {rest : List Char}
    (h : rest.dropWhile isDigitOrLine = rest) : (cs ++ rest).dropWhile isDigitOrLine = rest := by
  rw [List.dropWhile_append_of_pos fun c hc => by rw [isDigitOrLine, hcs c hc]; rfl, h]

theorem dropWhile_mark {c : Char} (rest : List Char) (h : isDigitOrLine c = false) :
    (c :: rest).dropWhile isDigitOrLine = c :: rest := by
  rw [List.dropWhile_cons, h, if_neg Bool.false_ne_true]

theorem exponentMark_facts (e : Exponent) : ∃ c, (c = 'e' ∨ c = 'E')
    ∧ e.chars = c :: (Exponent.signChars e.sign ++ e.digits.chars) := by
  cases h : e.capital with
  | true => exact ⟨'E', .inr rfl, by rw [Exponent.chars, h]; rfl⟩
  | false => exact ⟨'e', .inl rfl, by rw [Exponent.chars, h]; rfl⟩

/-- Exponents with a sign look like exponents, others do not. -/
theorem looksExponent_exponent (e : Exponent) : looksExponent e.chars = e.sign.isSome := by
  obtain ⟨m, hm, hchars⟩ := exponentMark_facts e
  obtain ⟨c, cs, hdigits, hc⟩ := e.digits.exists_cons
  have hall : (c :: cs).all Char.isDigit = true := by
    rw [← hdigits]
    exact List.all_eq_true.2 e.digits.all_digits
  have hmark : (m == 'e' || m == 'E') = true := by
    rcases hm with rfl | rfl <;> rfl
  rw [hchars, hdigits]
  cases e.sign with
  | some minus =>
    show ((m == 'e' || m == 'E') && _ && (c :: cs).all Char.isDigit) = true
    rw [hmark, hall]
    cases minus <;> rfl
  | none =>
    show looksExponent (m :: c :: cs) = false
    cases cs with
    | nil => rfl
    | cons d cs =>
      have hsign : (c == '+' || c == '-') = false := by
        rw [Bool.or_eq_false_iff, beq_eq_false_iff_ne, beq_eq_false_iff_ne]
        constructor <;> rintro rfl <;> exact Bool.noConfusion hc
      rw [looksExponent, hsign, Bool.and_false, Bool.false_and]

theorem afterSixties_of_head {c : Char} (rest : List Char) (h : c ≠ ':') : afterSixties (c :: rest) = none := by
  rw [afterSixties, afterSixties.go.eq_3]
  · rfl
  · rintro a b rest ⟨⟩
    exact h rfl
  · rintro a ⟨⟩
    exact h rfl

section LooksFloat

variable {s : String} {c : Char} {rest cs : List Char}

theorem looksFloat_eq (h : afterSign s.toList = c :: rest) (hc : c.isDigit = true) :
    looksFloat s = match rest.dropWhile isDigitOrLine with
      | '.' :: rest => looksExponent (rest.dropWhile isDigitOrLine)
      | rest => match afterSixties rest with
        | some ('.' :: rest) => rest.all isDigitOrLine
        | _ => false := by
  have hpoint : c ≠ '.' := by
    rintro rfl
    exact Bool.noConfusion hc
  rw [looksFloat]
  split
  · next htext =>
    rw [htext] at h
    cases h
    exact absurd rfl hpoint
  · next hsign _ =>
    rw [h] at hsign
    cases hsign
    exact absurd rfl hpoint
  · next hsign _ =>
    rw [h] at hsign
    cases hsign
    rw [hc]
    rfl
  · next hsign _ =>
    rw [h] at hsign
    cases hsign

theorem looksFloat_point (h : afterSign s.toList = c :: rest) (hc : c.isDigit = true)
    (hrest : rest.dropWhile isDigitOrLine = '.' :: cs) :
    looksFloat s = looksExponent (cs.dropWhile isDigitOrLine) := by
  rw [looksFloat_eq h hc, hrest]
  rfl

theorem looksFloat_pointless (h : afterSign s.toList = c :: rest) (hc : c.isDigit = true)
    (hrest : rest.dropWhile isDigitOrLine = cs) (hpoint : cs.head? ≠ some '.') (hsixties : afterSixties cs = none) :
    looksFloat s = false := by
  rw [looksFloat_eq h hc, hrest]
  split
  · exact absurd rfl hpoint
  · rw [hsixties]

end LooksFloat

/-- Only numbers with a point, and a sign in the exponent, look like numbers with a point. -/
theorem looksFloat_number (n : Number) : looksFloat (String.ofList n.chars) = n.hasFloatLook := by
  obtain ⟨c, cs, hwhole, hunsigned, hc⟩ := n.unsigned_cons
  have hdigits : ∀ d ∈ cs, d.isDigit = true := fun d hd =>
    n.whole.all_digits d (by rw [hwhole]; exact List.mem_cons_of_mem _ hd)
  have hsign : afterSign (String.ofList n.chars).toList = c :: (cs ++ n.tail) := by
    rw [String.toList_ofList, n.afterSign_chars, hunsigned]
  rw [Number.hasFloatLook]
  rcases n.tail_cases with ⟨htail, hplaces, -⟩ | ⟨ds, hplaces, htail⟩ | ⟨hplaces, e, hexponent, htail⟩
  · rw [htail] at hsign
    rw [hplaces]
    exact looksFloat_pointless hsign hc (dropWhile_digits hdigits rfl) (by simp) rfl
  · rw [htail] at hsign
    rw [hplaces, looksFloat_point hsign hc (dropWhile_digits hdigits (dropWhile_mark _ rfl))]
    cases hexponent : n.exponent with
    | none =>
      show looksExponent ((ds.chars ++ []).dropWhile isDigitOrLine) = true
      rw [dropWhile_digits ds.all_digits rfl]
      rfl
    | some e =>
      obtain ⟨m, hm, hchars⟩ := exponentMark_facts e
      have hmark : e.chars.dropWhile isDigitOrLine = e.chars := by
        rw [hchars]
        rcases hm with rfl | rfl <;> exact dropWhile_mark _ rfl
      show looksExponent ((ds.chars ++ e.chars).dropWhile isDigitOrLine) = e.sign.isSome
      rw [dropWhile_digits ds.all_digits hmark, looksExponent_exponent]
  · obtain ⟨m, hm, hchars⟩ := exponentMark_facts e
    rw [htail, hchars] at hsign
    have hmark : isDigitOrLine m = false ∧ m ≠ '.' ∧ m ≠ ':' := by
      rcases hm with rfl | rfl <;> decide
    rw [hplaces]
    exact looksFloat_pointless hsign hc (dropWhile_digits hdigits (dropWhile_mark _ hmark.1))
      (by simpa using hmark.2.1) (afterSixties_of_head _ hmark.2.2)

/-- Only numbers without point and exponent look like integers. -/
theorem looksInt_number (n : Number) : looksInt (String.ofList n.chars) = n.isInteger := by
  obtain ⟨c, cs, hwhole, hunsigned, hc⟩ := n.unsigned_cons
  have hdigits : ∀ d ∈ cs, d.isDigit = true := fun d hd =>
    n.whole.all_digits d (by rw [hwhole]; exact List.mem_cons_of_mem _ hd)
  rw [looksInt, String.toList_ofList, n.afterSign_chars, hunsigned]
  by_cases hzero : c = '0'
  · subst hzero
    obtain rfl := n.eq_nil_of_zero hwhole
    rcases n.tail_cases with ⟨htail, hplaces, hexponent⟩ | ⟨ds, hplaces, htail⟩ | ⟨hplaces, e, hexponent, htail⟩
    · rw [htail, Number.isInteger, hplaces, hexponent]
      rfl
    · rw [htail, Number.isInteger, hplaces]
      rfl
    · obtain ⟨m, hm, hchars⟩ := exponentMark_facts e
      rw [htail, hchars, Number.isInteger, hplaces, hexponent]
      rcases hm with rfl | rfl <;> rfl
  · have hother : ∀ rest, (c :: rest).head? ≠ some '0' := fun rest h => hzero (Option.some.inj h)
    split
    · next heq => exact absurd (congrArg List.head? heq) (hother _)
    · next heq => exact absurd (congrArg List.head? heq) (hother _)
    · next heq => exact absurd (congrArg List.head? heq) (hother _)
    · next heq =>
      cases heq
      rw [hc, Bool.true_and]
      rcases n.tail_cases with ⟨htail, hplaces, hexponent⟩ | ⟨ds, hplaces, htail⟩ | ⟨hplaces, e, hexponent, htail⟩
      · rw [htail, Number.isInteger, hplaces, hexponent, dropWhile_digits hdigits rfl]
        rfl
      · rw [htail, Number.isInteger, hplaces, dropWhile_digits hdigits (dropWhile_mark _ rfl)]
        simp only [afterSixties_of_head _ (show '.' ≠ ':' by decide)]
        rfl
      · obtain ⟨m, hm, hchars⟩ := exponentMark_facts e
        have hmark : isDigitOrLine m = false ∧ m ≠ ':' := by
          rcases hm with rfl | rfl <;> decide
        rw [htail, hchars, Number.isInteger, hplaces, hexponent,
          dropWhile_digits hdigits (dropWhile_mark _ hmark.1)]
        simp only [afterSixties_of_head _ hmark.2]
        rfl
    · next heq => cases heq

theorem after_eq_none {c : Char} {cs : List Char} (h : cs.head? ≠ some c) : after c cs = none := by
  cases cs with
  | nil => rfl
  | cons d cs =>
    have hne : (c == d) = false := by
      rw [beq_eq_false_iff_ne]
      rintro rfl
      exact h rfl
    rw [after, hne, if_neg Bool.false_ne_true]

/-- Digits with anything else than a dash behind them are no year of a timestamp. -/
theorem readTimestamp_eq_none (cs : List Char) {rest : List Char} (hcs : ∀ c ∈ cs, c.isDigit = true)
    (hdigit : ∀ c, rest.head? = some c → c.isDigit = false) (hdash : cs = [] ∨ rest.head? ≠ some '-') :
    readTimestamp (cs ++ rest) = none := by
  have hrest : (rest.take (4 - cs.length)).takeWhile Char.isDigit = [] := by
    cases rest with
    | nil => rw [List.take_nil, List.takeWhile_nil]
    | cons d rest =>
      cases 4 - cs.length with
      | zero => rw [List.take_zero, List.takeWhile_nil]
      | succ k => rw [List.take_succ_cons, List.takeWhile_cons, hdigit d rfl, if_neg Bool.false_ne_true]
  have hyear : ((cs ++ rest).take 4).takeWhile Char.isDigit = cs.take 4 := by
    rw [List.take_append, List.takeWhile_append_of_pos fun c hc => hcs c (List.mem_of_mem_take hc), hrest,
      List.append_nil]
  rw [readTimestamp, digitsBetween, hyear]
  by_cases hlength : cs.length < 4
  · have hshort : (cs.take 4).length < 4 := by
      rw [List.length_take]
      omega
    simp only [hshort, if_true]
    rfl
  · have hlong : (cs.take 4).length = 4 := by
      rw [List.length_take]
      omega
    have hafter : after '-' ((cs ++ rest).drop 4) = none := by
      apply after_eq_none
      rw [List.drop_append_of_le_length (by omega)]
      cases hdrop : cs.drop 4 with
      | cons d ds =>
        have hd : d.isDigit = true := hcs d (List.mem_of_mem_drop (hdrop ▸ List.mem_cons_self ..))
        rintro ⟨⟩
        exact Bool.noConfusion hd
      | nil =>
        rcases hdash with rfl | hdash
        · exact absurd (show ([] : List Char).length < 4 by decide) hlength
        · exact hdash
    simp only [hlong, Nat.lt_irrefl, if_false]
    show ((after '-' ((cs ++ rest).drop 4)).bind _) = none
    rw [hafter]
    rfl

/-- No number looks like a timestamp. -/
theorem looksTimestamp_number (n : Number) : looksTimestamp (String.ofList n.chars) = false := by
  have hnone : readTimestamp n.chars = none := by
    cases hn : n.negative with
    | true =>
      rw [Number.chars_eq, hn]
      refine readTimestamp_eq_none [] (by simp) ?_ (.inl rfl)
      rintro c ⟨⟩
      rfl
    | false =>
      have hhead : ∀ c, n.tail.head? = some c → c = '.' ∨ c = 'e' ∨ c = 'E' := by
        intro c hc
        rcases n.tail_cases with ⟨htail, -⟩ | ⟨ds, -, htail⟩ | ⟨-, e, -, htail⟩
        · rw [htail] at hc
          cases hc
        · rw [htail] at hc
          cases hc
          exact .inl rfl
        · obtain ⟨m, hm, hchars⟩ := exponentMark_facts e
          rw [htail, hchars] at hc
          cases hc
          exact .inr hm
      rw [Number.chars_eq, hn]
      show readTimestamp (n.whole.chars ++ n.tail) = none
      refine readTimestamp_eq_none _ n.whole.all_digits ?_ (.inr ?_)
      · intro c hc
        rcases hhead c hc with rfl | rfl | rfl <;> rfl
      · intro hc
        rcases hhead '-' hc with h | h | h <;> exact absurd h (by decide)
  rw [looksTimestamp, String.toList_ofList, hnone]

theorem withoutLastBreak_eq {cs : List Char} (h : '\n' ∉ cs) :
    withoutLastBreak (String.ofList cs) = String.ofList cs := by
  rw [withoutLastBreak, String.toList_ofList]
  split
  · next rest heq => exact absurd (List.mem_reverse.1 (heq ▸ List.mem_cons_self ..)) h
  · rfl

/-- The tag of a number. -/
theorem ofPlain_number (n : Number) : Tag.ofPlain (String.ofList n.chars) =
    if n.isInteger then .int else if n.hasFloatLook then .float else .str := by
  have hbreak : '\n' ∉ n.chars := fun h => n.ne_of_mem h rfl (by decide) rfl
  have hword : ∀ w : String, w.toList.all (fun c => !c.isDigit) = true → (String.ofList n.chars == w) = false :=
    fun w hw => beq_eq_false_iff_ne.2 (n.ne_word hw)
  have hempty : (String.ofList n.chars).isEmpty = false := by
    rw [String.isEmpty_eq_false_iff]
    exact n.ne_word rfl
  have hbool : looksBool (String.ofList n.chars) = false := n.notMem_words (by decide +kernel)
  have hnull : looksNull (String.ofList n.chars) = false := n.notMem_words (by decide +kernel)
  have hexclusive : n.isInteger = true → n.hasFloatLook = false := by
    intro h
    rw [Number.isInteger, Bool.and_eq_true, Option.isNone_iff_eq_none] at h
    rw [Number.hasFloatLook, h.1]
    rfl
  simp only [Tag.ofPlain, withoutLastBreak_eq hbreak, hempty, hbool, looksFloat_number, looksInt_number, hnull,
    looksTimestamp_number, hword "<<" (by decide), hword "=" (by decide), hword "!" (by decide),
    hword "&" (by decide), hword "*" (by decide), Bool.false_eq_true, if_false, Bool.or_false]
  cases hinteger : n.isInteger with
  | true => rw [hexclusive hinteger]; rfl
  | false => cases n.hasFloatLook <;> rfl

/-- The tag of a word of the grammar. -/
theorem ofPlain_word {w : Word} (h : w.isStrict = true) :
    Tag.ofPlain (String.ofList w.chars) = if w = .null then .null else .bool := by
  cases w with
  | null => decide +kernel
  | truth b => cases b <;> decide +kernel
  | nan => cases h
  | infinity negative => cases h

end RouteDoc.Json
