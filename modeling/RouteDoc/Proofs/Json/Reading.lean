import RouteDoc.Proofs.Json.Grammar

/-!
# Reading by the grammar

The reader of JSON reads the text of a tree to what the tree denotes, whatever the layout, and refuses it when
a word of it is none of the grammar.  Behind a value something has to end it: a blank, a comma, a closing
bracket or the end of the text, for digits could go on.

* `Json.Ends` — what may follow a value;
* `Json.readText_body`, `Json.readNumber_number` — tokens;
* `Json.readValue_node` — values, by recursion along the tree;
* `Json.read?_source` — whole texts.
-/

namespace RouteDoc.Json

/-! ### What follows a value -/

/-- A text that ends a value in front of it. -/
def Ends (cs : List Char) : Prop :=
  ∀ c, cs.head? = some c → isBlank c = true ∨ c = ',' ∨ c = ']' ∨ c = '\x7d'

@[simp] theorem ends_nil : Ends [] := by simp [Ends]

@[simp] theorem ends_comma (cs : List Char) : Ends (',' :: cs) := by simp [Ends]

@[simp] theorem ends_bracket (cs : List Char) : Ends (']' :: cs) := by simp [Ends]

@[simp] theorem ends_brace (cs : List Char) : Ends ('\x7d' :: cs) := by simp [Ends]

theorem ends_blanks (bs : Blanks) {cs : List Char} (h : Ends cs) : Ends (bs.chars ++ cs) := by
  cases bs with
  | nil => exact h
  | cons b bs =>
    intro c hc
    have hb : b.1 = c := by simpa [Blanks.chars] using hc
    exact .inl (hb ▸ b.2)

theorem Ends.not_digit {cs : List Char} (h : Ends cs) {c : Char} (hc : cs.head? = some c) : c.isDigit = false := by
  rcases h c hc with hb | rfl | rfl | rfl
  · simp only [isBlank, Bool.or_eq_true, beq_iff_eq] at hb
    rcases hb with ((rfl | rfl) | rfl) | rfl <;> decide
  · decide
  · decide
  · decide

/-- A text that ends a value begins with none of the marks of numbers. -/
theorem Ends.ne {cs : List Char} (h : Ends cs) {c : Char} (hc : cs.head? = some c) (d : Char)
    (hd : d ∈ ['.', 'e', 'E']) : c ≠ d := by
  rintro rfl
  rcases h c hc with hb | rfl | rfl | rfl
  · simp only [isBlank, Bool.or_eq_true, beq_iff_eq] at hb
    rcases hb with ((rfl | rfl) | rfl) | rfl <;> simp at hd
  · simp at hd
  · simp at hd
  · simp at hd

/-- Blanks in front of something else are skipped. -/
theorem skipBlank_blanks (bs : Blanks) {cs : List Char} (h : ∀ c, cs.head? = some c → isBlank c = false) :
    skipBlank (bs.chars ++ cs) = cs := by
  have hall : ∀ c ∈ bs.chars, isBlank c = true := by
    intro c hc
    obtain ⟨b, -, rfl⟩ := List.mem_map.1 hc
    exact b.2
  rw [skipBlank, List.dropWhile_append_of_pos hall]
  cases cs with
  | nil => rfl
  | cons c cs =>
    have hc : isBlank c = false := h c rfl
    rw [List.dropWhile_cons, hc]
    rfl

theorem skipBlank_blanks_cons (bs : Blanks) {c : Char} (cs : List Char) (h : isBlank c = false) :
    skipBlank (bs.chars ++ c :: cs) = c :: cs :=
  skipBlank_blanks bs (by simp [h])

/-! ### Texts in quotes -/

/-- What spells a character is read to the character. -/
theorem readText_piece (p : Piece) (cs : List Char) :
    readText (p.chars ++ cs) = (readText cs).map fun (tail, rest) => (p.char :: tail, rest) := by
  cases p with
  | plain c h =>
    simp only [isPlain, Bool.and_eq_true, decide_eq_true_eq, bne_iff_ne] at h
    obtain ⟨⟨hlow, hquote⟩, hslash⟩ := h
    show readText (c :: cs) = _
    rw [readText.eq_5 _ _ (by simpa using hquote) (by simp [hslash]) (by simp [hslash]),
      if_neg (Nat.not_lt.2 hlow)]
    cases readText cs <;> rfl
  | letter c h =>
    obtain ⟨d, hd⟩ := Option.isSome_iff_exists.1 h
    have hu : c ≠ 'u' := by
      rintro rfl
      simp [escaped?] at h
    show readText ('\\' :: c :: cs) = _
    rw [readText.eq_4 _ _ (by simp [hu])]
    simp only [Piece.char, hd, Option.get_some]
    cases readText cs <;> rfl
  | code q h =>
    show readText ('\\' :: 'u' :: q.a :: q.b :: q.c :: q.d :: cs) = _
    rw [readText]
    simp only [q.read, Option.bind_eq_bind, Option.bind_some, h.1, h.2, Bool.false_eq_true, if_false, Piece.char]
    cases readText cs <;> rfl
  | pair high low h =>
    show readText ('\\' :: 'u' :: high.a :: high.b :: high.c :: high.d ::
      '\\' :: 'u' :: low.a :: low.b :: low.c :: low.d :: cs) = _
    rw [readText]
    simp only [high.read, low.read, Option.bind_eq_bind, Option.bind_some, h.1, h.2, if_true, Piece.char]
    cases readText cs <;> rfl

theorem readText_body (b : Body) (cs : List Char) :
    readText (b.chars ++ '"' :: cs) = some (b.map Piece.char, cs) := by
  induction b with
  | nil => rfl
  | cons p b ih =>
    have hchars : Body.chars (p :: b) ++ '"' :: cs = p.chars ++ (Body.chars b ++ '"' :: cs) := by
      simp [Body.chars, List.append_assoc]
    rw [hchars, readText_piece, ih]
    rfl

/-! ### Numbers -/

theorem spanDigits_digits (ds : Digits) {cs : List Char} (h : ∀ c, cs.head? = some c → c.isDigit = false) :
    spanDigits (ds.chars ++ cs) = (ds.chars, cs) := by
  have hrest : cs.takeWhile Char.isDigit = [] ∧ cs.dropWhile Char.isDigit = cs := by
    cases cs with
    | nil => exact ⟨rfl, rfl⟩
    | cons c cs =>
      have hc : c.isDigit = false := h c rfl
      simp [hc]
  rw [spanDigits, List.takeWhile_append_of_pos ds.all_digits, List.dropWhile_append_of_pos ds.all_digits,
    hrest.1, hrest.2, List.append_nil]

/-- Digits begin with a digit. -/
theorem Digits.exists_cons (ds : Digits) : ∃ c cs, ds.chars = c :: cs ∧ c.isDigit = true := by
  cases h : ds.chars with
  | nil => exact absurd h ds.ne_nil
  | cons c cs => exact ⟨c, cs, rfl, ds.all_digits c (h ▸ List.mem_cons_self)⟩

theorem Digits.head_ne (ds : Digits) (cs : List Char) {c : Char} (hc : c.isDigit = false) :
    (ds.chars ++ cs).head? ≠ some c := by
  obtain ⟨d, ds', hds, hd⟩ := ds.exists_cons
  rw [hds]
  rintro heq
  cases heq
  rw [hd] at hc
  cases hc

theorem readWhole_number (n : Number) {cs : List Char} (h : ∀ c, cs.head? = some c → c.isDigit = false) :
    readWhole (n.whole.chars ++ cs) = some (n.whole.chars, cs) := by
  obtain ⟨c, ds, hds, -⟩ := n.whole.exists_cons
  by_cases hzero : c = '0'
  · have hwhole : n.whole.chars = ['0'] := n.leading (by rw [hds, hzero]; rfl)
    rw [hwhole]
    rfl
  · have hspan := spanDigits_digits n.whole h
    rw [hds] at hspan ⊢
    rw [List.cons_append] at hspan ⊢
    rw [readWhole.eq_2 _ (by simpa using hzero), hspan]

theorem readFraction_places (places : Option Digits) {cs : List Char}
    (h : ∀ c, cs.head? = some c → c.isDigit = false) (hpoint : cs.head? ≠ some '.') :
    readFraction ((places.map fun ds => '.' :: ds.chars).getD [] ++ cs) = some (places.map Digits.chars, cs) := by
  cases places with
  | none =>
    show readFraction cs = _
    rw [readFraction.eq_2 _ (by
      rintro rest rfl
      exact hpoint rfl)]
    rfl
  | some ds =>
    show readFraction ('.' :: (ds.chars ++ cs)) = _
    obtain ⟨c, ds', hds, -⟩ := ds.exists_cons
    have hspan := spanDigits_digits ds h
    rw [hds] at hspan
    simp only [readFraction, Option.map_some, hds]
    rw [hspan]

theorem readSigned_exponent (e : Exponent) {cs : List Char} (h : ∀ c, cs.head? = some c → c.isDigit = false) :
    readSigned (Exponent.signChars e.sign ++ (e.digits.chars ++ cs)) = some (e.value, cs) := by
  obtain ⟨capital, sign, ds⟩ := e
  obtain ⟨c, ds', hds, -⟩ := ds.exists_cons
  have hspan := spanDigits_digits ds h
  rw [hds] at hspan
  cases sign with
  | none =>
    have hminus := ds.head_ne cs (c := '-') (by decide)
    have hplus := ds.head_ne cs (c := '+') (by decide)
    rw [hds] at hminus hplus
    simp only [Exponent.signChars, List.nil_append, hds, List.cons_append] at hspan ⊢
    rw [readSigned.eq_3 _ (by
      rintro rest heq
      exact hminus (by rw [List.cons_append, heq]; rfl)) (by
      rintro rest heq
      exact hplus (by rw [List.cons_append, heq]; rfl)), hspan]
    simp [Exponent.value, hds]
  | some minus =>
    cases minus with
    | false =>
      simp only [Exponent.signChars, Bool.false_eq_true, if_false, List.singleton_append, hds, readSigned]
      rw [hspan]
      simp [Exponent.value, hds]
    | true =>
      simp only [Exponent.signChars, if_true, List.singleton_append, hds, readSigned]
      rw [hspan]
      simp [Exponent.value, hds]

theorem readExponent_exponent (exponent : Option Exponent) {cs : List Char} (h : Ends cs) :
    readExponent ((exponent.map Exponent.chars).getD [] ++ cs) = some (exponent.map Exponent.value, cs) := by
  cases exponent with
  | none =>
    show readExponent cs = _
    rw [readExponent.eq_3 _ (by
      rintro rest rfl
      exact h.ne rfl 'e' (by simp) rfl) (by
      rintro rest rfl
      exact h.ne rfl 'E' (by simp) rfl)]
    rfl
  | some e =>
    have hsigned := readSigned_exponent e fun c hc => h.not_digit hc
    have hchars : (Option.map Exponent.chars (some e)).getD [] ++ cs
        = (if e.capital then 'E' else 'e') :: (Exponent.signChars e.sign ++ (e.digits.chars ++ cs)) := by
      simp [Exponent.chars, List.append_assoc]
    rw [hchars]
    cases e.capital with
    | false =>
      simp only [Bool.false_eq_true, if_false, readExponent, hsigned]
      rfl
    | true =>
      simp only [if_true, readExponent, hsigned]
      rfl

/-- What stands behind digits is no digit: a point, an exponent, or what ends the number. -/
theorem Number.tail_head (n : Number) {cs : List Char} (h : Ends cs) {c : Char}
    (hc : (n.tail ++ cs).head? = some c) : c.isDigit = false := by
  unfold tail at hc
  cases hp : n.places with
  | some ds =>
    simp only [hp, Option.map_some, Option.getD_some, List.cons_append, List.head?_cons, Option.some.injEq] at hc
    subst hc
    decide
  | none =>
    cases he : n.exponent with
    | some e =>
      simp only [hp, he, Option.map_none, Option.getD_none, Option.map_some, Option.getD_some, List.nil_append,
        Exponent.chars, List.cons_append, List.head?_cons, Option.some.injEq] at hc
      subst hc
      split <;> decide
    | none =>
      simp only [hp, he, Option.map_none, Option.getD_none, List.nil_append] at hc
      exact h.not_digit hc

/-- What stands behind the places is no digit and no point. -/
theorem Number.exponent_head (n : Number) {cs : List Char} (h : Ends cs) {c : Char}
    (hc : ((n.exponent.map Exponent.chars).getD [] ++ cs).head? = some c) : c.isDigit = false ∧ c ≠ '.' := by
  cases he : n.exponent with
  | some e =>
    simp only [he, Option.map_some, Option.getD_some, Exponent.chars, List.cons_append, List.head?_cons,
      Option.some.injEq] at hc
    subst hc
    split <;> decide
  | none =>
    simp only [he, Option.map_none, Option.getD_none, List.nil_append] at hc
    exact ⟨h.not_digit hc, h.ne hc '.' (by simp)⟩

theorem readUnsigned_number (n : Number) {cs : List Char} (h : Ends cs) :
    readUnsigned n.negative (n.whole.chars ++ (n.tail ++ cs)) = some (n.value, cs) := by
  have hwhole := readWhole_number n fun c hc => n.tail_head h hc
  have hplaces := readFraction_places n.places (fun c hc => (n.exponent_head h hc).1)
    (fun hc => (n.exponent_head h hc).2 rfl)
  have hexponent := readExponent_exponent n.exponent h
  have htail : n.tail ++ cs = (n.places.map fun ds => '.' :: ds.chars).getD []
      ++ ((n.exponent.map Exponent.chars).getD [] ++ cs) := by
    rw [Number.tail, List.append_assoc]
  rw [readUnsigned, hwhole]
  simp only [htail, hplaces, hexponent, Option.bind_eq_bind, Option.bind_some]
  cases hp : n.places with
  | none =>
    cases he : n.exponent with
    | none =>
      simp only [Option.map_none, Number.value, Number.isInteger, Number.integer, hp, he]
      cases n.negative <;> rfl
    | some e => simp [Number.value, Number.isInteger, Number.nearest, Number.scale, Number.placeDigits, hp, he]
  | some ds =>
    cases he : n.exponent with
    | none => simp [Number.value, Number.isInteger, Number.nearest, Number.scale, Number.placeDigits, hp, he]
    | some e => simp [Number.value, Number.isInteger, Number.nearest, Number.scale, Number.placeDigits, hp, he]

/-- **The text of a number is read to what it denotes.** -/
theorem readNumber_number (n : Number) {cs : List Char} (h : Ends cs) :
    readNumber (n.chars ++ cs) = some (n.value, cs) := by
  have hunsigned := readUnsigned_number n h
  have hchars : n.chars ++ cs = (if n.negative then ['-'] else []) ++ (n.whole.chars ++ (n.tail ++ cs)) := by
    simp [Number.chars, List.append_assoc]
  rw [hchars]
  cases hn : n.negative with
  | true =>
    rw [hn] at hunsigned
    exact hunsigned
  | false =>
    rw [hn] at hunsigned
    show readNumber (n.whole.chars ++ (n.tail ++ cs)) = _
    rw [readNumber.eq_2 _ (by
      rintro rest heq
      exact n.whole.head_ne (n.tail ++ cs) (c := '-') (by decide) (by rw [heq]; rfl)), hunsigned]

/-- The characters of numbers. -/
theorem Number.char_cases (n : Number) {c : Char} (h : c ∈ n.chars) :
    c.isDigit = true ∨ c ∈ ['-', '+', '.', 'e', 'E'] := by
  have hexponent : ∀ e : Exponent, c ∈ e.chars → c.isDigit = true ∨ c ∈ ['-', '+', '.', 'e', 'E'] := by
    intro e hc
    rcases List.mem_cons.1 hc with rfl | hc
    · cases e.capital <;> simp
    · rcases List.mem_append.1 hc with hc | hc
      · cases hs : e.sign with
        | none => simp [hs, Exponent.signChars] at hc
        | some minus =>
          simp only [hs, Exponent.signChars, List.mem_singleton] at hc
          subst hc
          cases minus <;> simp
      · exact .inl (e.digits.all_digits c hc)
  rcases List.mem_append.1 h with hc | hc
  · cases hn : n.negative with
    | false => simp [hn] at hc
    | true =>
      obtain rfl : c = '-' := by simpa [hn] using hc
      simp
  · rcases List.mem_append.1 hc with hc | hc
    · exact .inl (n.whole.all_digits c hc)
    · rcases List.mem_append.1 hc with hc | hc
      · cases hp : n.places with
        | none => simp [hp] at hc
        | some ds =>
          rcases List.mem_cons.1 (by simpa [hp] using hc) with rfl | hc
          · simp
          · exact .inl (ds.all_digits c hc)
      · cases he : n.exponent with
        | none => simp [he] at hc
        | some e => exact hexponent e (by simpa [he] using hc)

/-! ### Values -/

/-- A character that a value may begin with. -/
def isOpening (c : Char) : Bool := !isBlank c && c != ']' && c != '\x7d' && c != ',' && c != ':'

theorem isOpening_of_isDigit {c : Char} (h : c.isDigit = true) : isOpening c = true := by
  have hne : ∀ d : Char, d.isDigit = false → c ≠ d := by
    rintro d hd rfl
    rw [h] at hd
    cases hd
  simp [isOpening, isBlank, hne]

mutual

/-- A count that is large enough to read a value. -/
def Node.height : Node → Nat
  | .word _ | .number _ | .text _ | .emptyList _ | .emptyObject _ => 1
  | .list items => items.height + 1
  | .object members => members.height + 1

/-- A count that is large enough to read items. -/
def Items.height : Items → Nat
  | .last _ item _ => item.height + 1
  | .more _ item _ rest => max item.height rest.height + 1

/-- A count that is large enough to read members. -/
def Members.height : Members → Nat
  | .last _ _ _ _ item _ => item.height + 1
  | .more _ _ _ _ item _ rest => max item.height rest.height + 1

end

/-- A value begins with a character that no blank, comma, colon or closing bracket is. -/
theorem Node.exists_cons (t : Node) : ∃ c cs, t.chars = c :: cs ∧ isOpening c = true := by
  cases t with
  | word w =>
    cases w with
    | null => exact ⟨_, _, rfl, by decide⟩
    | truth b => cases b <;> exact ⟨_, _, rfl, by decide⟩
    | nan => exact ⟨_, _, rfl, by decide⟩
    | infinity n => cases n <;> exact ⟨_, _, rfl, by decide⟩
  | number n =>
    obtain ⟨c, cs, hcs, hc⟩ := n.whole.exists_cons
    cases hn : n.negative with
    | true => exact ⟨'-', n.whole.chars ++ n.tail, by simp [Node.chars, Number.chars, hn], by decide⟩
    | false => exact ⟨c, cs ++ n.tail, by simp [Node.chars, Number.chars, hn, hcs], isOpening_of_isDigit hc⟩
  | text b => exact ⟨_, _, rfl, by decide⟩
  | emptyList inside => exact ⟨_, _, rfl, by decide⟩
  | list items => exact ⟨_, _, rfl, by decide⟩
  | emptyObject inside => exact ⟨_, _, rfl, by decide⟩
  | object members => exact ⟨_, _, rfl, by decide⟩

theorem isOpening_ne {c : Char} (h : isOpening c = true) :
    isBlank c = false ∧ c ≠ ']' ∧ c ≠ '\x7d' ∧ c ≠ ',' ∧ c ≠ ':' := by
  simpa [isOpening, and_assoc] using h

/-- What is skipped in front of a value. -/
theorem skipBlank_node (bs : Blanks) (t : Node) (cs : List Char) :
    skipBlank (bs.chars ++ (t.chars ++ cs)) = t.chars ++ cs := by
  obtain ⟨c, ds, hds, hc⟩ := t.exists_cons
  rw [hds]
  exact skipBlank_blanks_cons bs _ (isOpening_ne hc).1

theorem skipBlank_skipBlank (cs : List Char) : skipBlank (skipBlank cs) = skipBlank cs := by
  induction cs with
  | nil => rfl
  | cons c cs ih =>
    by_cases hc : isBlank c = true
    · simpa [skipBlank, hc] using ih
    · simp [skipBlank, hc]

theorem readItems_skipBlank (fuel : Nat) (cs : List Char) : readItems fuel (skipBlank cs) = readItems fuel cs := by
  cases fuel with
  | zero => rfl
  | succ fuel => rw [readItems, readItems, skipBlank_skipBlank]

theorem readMembers_skipBlank (fuel : Nat) (cs : List Char) :
    readMembers fuel (skipBlank cs) = readMembers fuel cs := by
  cases fuel with
  | zero => rfl
  | succ fuel => rw [readMembers, readMembers, skipBlank_skipBlank]

/-- What begins like a number is read as one. -/
theorem readValue_of_number (fuel : Nat) {c : Char} (cs : List Char) (h : c = '-' ∨ c.isDigit = true) :
    readValue (fuel + 1) (c :: cs) = (readNumber (c :: cs)).map fun (n, rest) => (.scalar n, rest) := by
  have hne : ∀ d : Char, d ∈ ['n', 't', 'f', '"', '[', '\x7b'] → c ≠ d := by
    rintro d hd rfl
    simp only [List.mem_cons, List.not_mem_nil, or_false] at hd
    rcases hd with rfl | rfl | rfl | rfl | rfl | rfl <;> revert h <;> decide
  rw [readValue]
  · cases readNumber (c :: cs) <;> rfl
  all_goals
    intro rest heq
    exact absurd (List.cons.inj heq).1 (hne _ (by simp))

theorem readValue_word (w : Word) (fuel : Nat) (rest : List Char) :
    readValue (fuel + 1) (w.chars ++ rest) = if w.isStrict then some (.scalar w.value, rest) else none := by
  cases w with
  | null => rfl
  | truth b => cases b <;> rfl
  | nan => rfl
  | infinity n => cases n <;> rfl

theorem readValue_number (n : Number) (fuel : Nat) {rest : List Char} (h : Ends rest) :
    readValue (fuel + 1) (n.chars ++ rest) = some (.scalar n.value, rest) := by
  have hbegin : ∃ c cs, n.chars = c :: cs ∧ (c = '-' ∨ c.isDigit = true) := by
    obtain ⟨c, cs, hcs, hc⟩ := n.whole.exists_cons
    cases hn : n.negative with
    | true => exact ⟨'-', n.whole.chars ++ n.tail, by simp [Number.chars, hn], .inl rfl⟩
    | false => exact ⟨c, cs ++ n.tail, by simp [Number.chars, hn, hcs], .inr hc⟩
  obtain ⟨c, cs, hcs, hc⟩ := hbegin
  have hnumber := readNumber_number n h
  rw [hcs, List.cons_append] at hnumber ⊢
  rw [readValue_of_number fuel _ hc, hnumber]
  rfl

/-- Items begin with a value. -/
theorem skipBlank_items (items : Items) (rest : List Char) :
    ∃ c cs, skipBlank (items.chars ++ rest) = c :: cs ∧ isOpening c = true := by
  have hfirst : ∃ (bs : Blanks) (t : Node) (cs : List Char), items.chars ++ rest = bs.chars ++ (t.chars ++ cs) := by
    cases items with
    | last before item after => exact ⟨before, item, after.chars ++ rest, by simp [Items.chars]⟩
    | more before item after others =>
      exact ⟨before, item, after.chars ++ ',' :: (others.chars ++ rest), by simp [Items.chars]⟩
  obtain ⟨bs, t, cs, heq⟩ := hfirst
  obtain ⟨c, ds, hds, hc⟩ := t.exists_cons
  exact ⟨c, ds ++ cs, by rw [heq, skipBlank_node, hds, List.cons_append], hc⟩

/-- Members begin with a name. -/
theorem skipBlank_members (members : Members) (rest : List Char) :
    ∃ cs, skipBlank (members.chars ++ rest) = '"' :: cs := by
  have hfirst : ∃ (bs : Blanks) (cs : List Char), members.chars ++ rest = bs.chars ++ '"' :: cs := by
    cases members with
    | last before name behind ahead item after => exact ⟨before, _, by simp [Members.chars, nameChars]; rfl⟩
    | more before name behind ahead item after others =>
      exact ⟨before, _, by simp [Members.chars, nameChars]; rfl⟩
  obtain ⟨bs, cs, heq⟩ := hfirst
  exact ⟨cs, by rw [heq, skipBlank_blanks_cons bs _ (by decide)]⟩

/-- What a name with its colon leaves to be read. -/
theorem readMembers_name (fuel : Nat) (before : Blanks) (name : Body) (behind ahead : Blanks) (t : Node)
    (cs : List Char) :
    readMembers (fuel + 1) (nameChars before name behind ahead ++ (t.chars ++ cs)) =
      (readValue fuel (t.chars ++ cs)).bind fun (value, rest) =>
        match skipBlank rest with
        | ',' :: rest =>
          (readMembers fuel rest).bind fun (members, rest) => some ((.str name.text, value) :: members, rest)
        | '\x7d' :: rest => some ([(.str name.text, value)], rest)
        | _ => none := by
  have hname := readText_body name (behind.chars ++ ':' :: (ahead.chars ++ (t.chars ++ cs)))
  have hquote := skipBlank_blanks_cons before (c := '"')
    (name.chars ++ '"' :: (behind.chars ++ ':' :: (ahead.chars ++ (t.chars ++ cs)))) (by decide)
  have hcolon := skipBlank_blanks_cons behind (c := ':') (ahead.chars ++ (t.chars ++ cs)) (by decide)
  have hchars : nameChars before name behind ahead ++ (t.chars ++ cs) = before.chars ++
      '"' :: (name.chars ++ '"' :: (behind.chars ++ ':' :: (ahead.chars ++ (t.chars ++ cs)))) := by
    simp [nameChars]
  rw [hchars, readMembers, hquote]
  simp only [hname, Option.bind_eq_bind, Option.bind_some, hcolon, skipBlank_node]
  cases readValue fuel (t.chars ++ cs) with
  | none => rfl
  | some found => rfl

mutual

/-- **The text of a value is read to what it denotes**, and refused when it is not strict. -/
theorem readValue_node : (t : Node) → (fuel : Nat) → (rest : List Char) → t.height ≤ fuel → Ends rest →
    readValue fuel (t.chars ++ rest) = if t.isStrict then some (t.value, rest) else none
  | t, 0, _, hfuel, _ => by
    cases t <;> simp [Node.height] at hfuel
  | .word w, fuel + 1, rest, _, _ => readValue_word w fuel rest
  | .number n, fuel + 1, rest, _, hends => readValue_number n fuel hends
  | .text b, fuel + 1, rest, _, _ => by
    have hbody := readText_body b rest
    show readValue (fuel + 1) ('"' :: (b.chars ++ ['"'] ++ rest)) = some (.str b.text, rest)
    rw [List.append_assoc, List.singleton_append, readValue, hbody]
    rfl
  | .emptyList inside, fuel + 1, rest, _, _ => by
    have hskip := skipBlank_blanks_cons inside (c := ']') rest (by decide)
    show readValue (fuel + 1) ('[' :: (inside.chars ++ [']'] ++ rest)) = some (.list [], rest)
    rw [List.append_assoc, List.singleton_append, readValue, hskip]
    rfl
  | .emptyObject inside, fuel + 1, rest, _, _ => by
    have hskip := skipBlank_blanks_cons inside (c := '\x7d') rest (by decide)
    show readValue (fuel + 1) ('\x7b' :: (inside.chars ++ ['\x7d'] ++ rest)) = some (.map [], rest)
    rw [List.append_assoc, List.singleton_append, readValue, hskip]
    rfl
  | .list items, fuel + 1, rest, hfuel, _ => by
    obtain ⟨c, cs, hskip, hc⟩ := skipBlank_items items (']' :: rest)
    have hitems := readItems_items items fuel rest (by simpa [Node.height] using hfuel)
    rw [← readItems_skipBlank, hskip] at hitems
    have hbracket : c ≠ ']' := (isOpening_ne hc).2.1
    show readValue (fuel + 1) ('[' :: (items.chars ++ [']'] ++ rest)) = _
    rw [List.append_assoc, List.singleton_append, readValue, hskip]
    by_cases hs : items.isStrict = true
    · simp [hitems, hs, Node.isStrict, Node.value, hbracket]
    · simp [hitems, hs, Node.isStrict, hbracket]
  | .object members, fuel + 1, rest, hfuel, _ => by
    obtain ⟨cs, hskip⟩ := skipBlank_members members ('\x7d' :: rest)
    have hmembers := readMembers_members members fuel rest (by simpa [Node.height] using hfuel)
    rw [← readMembers_skipBlank, hskip] at hmembers
    show readValue (fuel + 1) ('\x7b' :: (members.chars ++ ['\x7d'] ++ rest)) = _
    rw [List.append_assoc, List.singleton_append, readValue, hskip]
    by_cases hs : members.isStrict = true
    · simp [hmembers, hs, Node.isStrict, Node.value]
    · simp [hmembers, hs, Node.isStrict]

/-- The text of items is read to what they denote. -/
theorem readItems_items : (items : Items) → (fuel : Nat) → (rest : List Char) → items.height ≤ fuel →
    readItems fuel (items.chars ++ ']' :: rest) = if items.isStrict then some (items.values, rest) else none
  | items, 0, _, hfuel => by
    cases items <;> simp [Items.height] at hfuel
  | .last before item after, fuel + 1, rest, hfuel => by
    have hitem := readValue_node item fuel (after.chars ++ ']' :: rest)
      (by simpa [Items.height] using hfuel) (ends_blanks after (ends_bracket rest))
    have hskip := skipBlank_blanks_cons after (c := ']') rest (by decide)
    simp only [Items.chars, Items.isStrict, Items.values, List.append_assoc, readItems, skipBlank_node, hitem]
    by_cases hs : item.isStrict = true
    · simp [hs, hskip]
    · simp [hs]
  | .more before item after others, fuel + 1, rest, hfuel => by
    simp only [Items.height, Nat.add_le_add_iff_right, Nat.max_le] at hfuel
    have hitem := readValue_node item fuel (after.chars ++ ',' :: (others.chars ++ ']' :: rest)) hfuel.1
      (ends_blanks after (ends_comma _))
    have hothers := readItems_items others fuel rest hfuel.2
    have hskip := skipBlank_blanks_cons after (c := ',') (others.chars ++ ']' :: rest) (by decide)
    simp only [Items.chars, Items.isStrict, Items.values, List.append_assoc, List.cons_append, readItems,
      skipBlank_node, hitem]
    by_cases hs : item.isStrict = true
    · by_cases hs' : others.isStrict = true
      · simp [hs, hs', hskip, hothers]
      · simp [hs, hs', hskip, hothers]
    · simp [hs]

/-- The text of members is read to their names and what they denote. -/
theorem readMembers_members : (members : Members) → (fuel : Nat) → (rest : List Char) → members.height ≤ fuel →
    readMembers fuel (members.chars ++ '\x7d' :: rest)
      = if members.isStrict then some (members.pairs, rest) else none
  | members, 0, _, hfuel => by
    cases members <;> simp [Members.height] at hfuel
  | .last before name behind ahead item after, fuel + 1, rest, hfuel => by
    have hitem := readValue_node item fuel (after.chars ++ '\x7d' :: rest)
      (by simpa [Members.height] using hfuel) (ends_blanks after (ends_brace rest))
    have hskip := skipBlank_blanks_cons after (c := '\x7d') rest (by decide)
    rw [Members.chars, List.append_assoc, List.append_assoc, readMembers_name, hitem]
    simp only [Members.isStrict, Members.pairs]
    by_cases hs : item.isStrict = true
    · simp [hs, hskip]
    · simp [hs]
  | .more before name behind ahead item after others, fuel + 1, rest, hfuel => by
    simp only [Members.height, Nat.add_le_add_iff_right, Nat.max_le] at hfuel
    have hitem := readValue_node item fuel (after.chars ++ ',' :: (others.chars ++ '\x7d' :: rest)) hfuel.1
      (ends_blanks after (ends_comma _))
    have hothers := readMembers_members others fuel rest hfuel.2
    have hskip := skipBlank_blanks_cons after (c := ',') (others.chars ++ '\x7d' :: rest) (by decide)
    rw [Members.chars, List.append_assoc, List.append_assoc, List.append_assoc, List.cons_append,
      readMembers_name, hitem]
    simp only [Members.isStrict, Members.pairs]
    by_cases hs : item.isStrict = true
    · by_cases hs' : others.isStrict = true
      · simp [hs, hs', hskip, hothers]
      · simp [hs, hs', hskip, hothers]
    · simp [hs]

end

/-! ### Whole texts -/

mutual

theorem Node.height_le : (t : Node) → t.height ≤ t.chars.length
  | .word w => by
    cases w with
    | null => simp [Node.height, Node.chars, Word.chars]
    | truth b => cases b <;> simp [Node.height, Node.chars, Word.chars]
    | nan => simp [Node.height, Node.chars, Word.chars]
    | infinity n => cases n <;> simp [Node.height, Node.chars, Word.chars]
  | .number n => by
    obtain ⟨c, cs, hcs, -⟩ := n.whole.exists_cons
    simp only [Node.height, Node.chars, Number.chars, hcs, List.length_append, List.length_cons]
    omega
  | .text b => by simp [Node.height, Node.chars]
  | .emptyList inside => by simp [Node.height, Node.chars]
  | .emptyObject inside => by simp [Node.height, Node.chars]
  | .list items => by
    have := items.height_le
    simp only [Node.height, Node.chars, List.length_cons, List.length_append]
    omega
  | .object members => by
    have := members.height_le
    simp only [Node.height, Node.chars, List.length_cons, List.length_append]
    omega

theorem Items.height_le : (items : Items) → items.height ≤ items.chars.length + 1
  | .last before item after => by
    have := item.height_le
    simp only [Items.height, Items.chars, List.length_append]
    omega
  | .more before item after rest => by
    have hitem := item.height_le
    have hrest := rest.height_le
    simp only [Items.height, Items.chars, List.length_append, List.length_cons]
    omega

theorem Members.height_le : (members : Members) → members.height ≤ members.chars.length + 1
  | .last before name behind ahead item after => by
    have := item.height_le
    simp only [Members.height, Members.chars, List.length_append]
    omega
  | .more before name behind ahead item after rest => by
    have hitem := item.height_le
    have hrest := rest.height_le
    simp only [Members.height, Members.chars, List.length_append, List.length_cons]
    omega

end

/-- **A JSON text is read to what it denotes**, and a text with a word that is none is refused. -/
theorem read?_source (s : Source) {text : String} (h : text.toList = s.chars) :
    read? text = if s.isStrict then some s.value else none := by
  have hfuel : s.node.height ≤ s.chars.length + 1 := by
    have := s.node.height_le
    simp only [Source.chars, List.length_append]
    omega
  have hends : Ends s.trail.chars := by simpa using ends_blanks s.trail ends_nil
  have hnode := readValue_node s.node (s.chars.length + 1) s.trail.chars hfuel hends
  have htrail : skipBlank s.trail.chars = [] := by
    have hskip : skipBlank (s.trail.chars ++ []) = [] := skipBlank_blanks s.trail (by simp)
    rwa [List.append_nil] at hskip
  have hlead : skipBlank s.chars = s.node.chars ++ s.trail.chars := skipBlank_node s.lead s.node _
  rw [read?, h]
  simp only [hlead, hnode, Source.isStrict, Source.value]
  by_cases hs : s.node.isStrict = true
  · simp [hs, htrail]
  · simp [hs]

/-- A text that is JSON is read to what it denotes. -/
theorem Denotes.read? {text : String} {v : Value} (h : Denotes text v) : Json.read? text = some v := by
  obtain ⟨s, hstrict, hchars, rfl⟩ := h
  rw [read?_source s hchars, if_pos hstrict]

end RouteDoc.Json
