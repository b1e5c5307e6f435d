import Mathlib.Data.List.Forall2
import RouteDoc.Proofs.Fields
import RouteDoc.Proofs.Json.Numbers
import RouteDoc.Proofs.Json.Reading
import RouteDoc.Proofs.TextKeyed

/-!
# Printing by the grammar

What the writer of JSON writes for a value is the text of a tree, laid out with one item or member to a line.  The
tree is strict when no number in the value is other than finite, and it denotes the value when the value is keyed
by texts.

* `Json.Spells`, `Json.spelled` — texts in quotes, character by character;
* `Key.printed?` — the name that a key becomes;
* `Json.Prints` — the tree that is written for a value;
* `Json.exists_prints` — whatever is written is the text of such a tree;
* `Json.Prints.value_eq`, `Json.Prints.isStrict_iff` — what the tree denotes, and when it is strict;
* `Json.exists_render` — the values that can be written;
* `Value.fits`, `Json.denotes_iff` — what the text of a value keyed by texts denotes.
-/

namespace RouteDoc

namespace Json

/-! ### Texts in quotes -/

/-- A spelling, character by character, as it is written. -/
def Spells (s : String) (b : Body) : Prop :=
  List.Forall₂ (fun c (p : Piece) => p.chars = quotedChar c ∧ p.char = c) s.toList b

theorem Spells.chars_eq {s : String} {b : Body} (h : Spells s b) : b.chars = s.toList.flatMap quotedChar := by
  unfold Spells at h
  generalize s.toList = cs at h
  induction h with
  | nil => rfl
  | cons hp _ ih =>
    rw [List.flatMap_cons, ← ih, ← hp.1]
    rfl

theorem Spells.text_eq {s : String} {b : Body} (h : Spells s b) : b.text = s := by
  have hmap : b.map Piece.char = s.toList := by
    unfold Spells at h
    generalize s.toList = cs at h
    induction h with
    | nil => rfl
    | cons hp _ ih => rw [List.map_cons, ih, hp.2]
  rw [Body.text, hmap, String.ofList_toList]

theorem hexQuad?_control : ∀ n < 32, hexQuad? '0' '0' (hexDigit (n / 16)) (hexDigit n) = some n := by decide

/-- How a character is written. -/
def pieceOf (c : Char) : Piece :=
  if hquote : c = '"' then .letter '"' rfl
  else if hslash : c = '\\' then .letter '\\' rfl
  else if c = '\n' then .letter 'n' rfl
  else if c = '\r' then .letter 'r' rfl
  else if c = '\t' then .letter 't' rfl
  else if c = '\x0c' then .letter 'f' rfl
  else if c = '\x08' then .letter 'b' rfl
  else if hlow : c.toNat < 32 then
    .code ⟨'0', '0', hexDigit (c.toNat / 16), hexDigit c.toNat, c.toNat, hexQuad?_control c.toNat hlow⟩ <| by
      simp only [Surrogate.isHigh, Surrogate.isLow, Bool.and_eq_false_iff, decide_eq_false_iff_not]
      omega
  else .plain c <| by
    simp only [isPlain, Bool.and_eq_true, decide_eq_true_eq, bne_iff_ne]
    exact ⟨⟨Nat.not_lt.1 hlow, hquote⟩, hslash⟩

theorem pieceOf_spec (c : Char) : (pieceOf c).chars = quotedChar c ∧ (pieceOf c).char = c := by
  unfold pieceOf quotedChar
  split_ifs with hquote hslash hfeed hreturn htab hform hback hlow
  · exact ⟨rfl, hquote.symm⟩
  · exact ⟨rfl, hslash.symm⟩
  · exact ⟨rfl, hfeed.symm⟩
  · exact ⟨rfl, hreturn.symm⟩
  · exact ⟨rfl, htab.symm⟩
  · exact ⟨rfl, hform.symm⟩
  · exact ⟨rfl, hback.symm⟩
  · exact ⟨rfl, Char.ofNat_toNat c⟩
  · exact ⟨rfl, rfl⟩

/-- How a text is written between quotes. -/
def spelled (s : String) : Body := s.toList.map pieceOf

theorem spells_spelled (s : String) : Spells s (spelled s) := by
  rw [Spells, spelled, List.forall₂_map_right_iff, List.forall₂_same]
  exact fun c _ => pieceOf_spec c

theorem Spells.quoted_eq {s : String} {b : Body} (h : Spells s b) : '"' :: (b.chars ++ ['"']) = quoted s := by
  rw [h.chars_eq, quoted, List.cons_append]

end Json

/-! ### Keys -/

/-- Few enough digits to be written. -/
def Writable (i : ℤ) : Prop := i.natAbs < Nat.pow 10 Numeral.digitLimit

instance : DecidablePred Writable := fun i => inferInstanceAs (Decidable (i.natAbs < Nat.pow 10 Numeral.digitLimit))

theorem Numeral.integerText_eq_ok {i : ℤ} {cs : List Char} :
    integerText i = .ok cs ↔ Writable i ∧ cs = integerDigits i := by
  unfold integerText Writable
  split
  · next h =>
    constructor
    · rintro ⟨⟩
      exact ⟨h, rfl⟩
    · rintro ⟨-, rfl⟩
      rfl
  · next h =>
    constructor
    · rintro ⟨⟩
    · rintro ⟨h', -⟩
      exact absurd h' h

/-- The name that a key becomes, if it can be one: a text itself, and the other simple scalars by their texts. -/
def Key.printed? : Key → Option String
  | .scalar (.str s) => some s
  | .scalar .null => some "null"
  | .scalar (.bool b) => some (if b then "true" else "false")
  | .scalar (.int i) => if Writable i then some (String.ofList (Numeral.integerDigits i)) else none
  | .scalar (.float x) => some (Json.floatText x)
  | _ => none

namespace Json

theorem keyText_eq_ok {k : Key} {cs : List Char} :
    keyText k = .ok cs ↔ ∃ name, k.printed? = some name ∧ cs = quoted name := by
  cases k with
  | tuple items => simp [keyText, Key.printed?]
  | scalar s =>
    cases s with
    | int i =>
      by_cases hi : Writable i
      · have htext : Numeral.integerText i = .ok (Numeral.integerDigits i) := Numeral.integerText_eq_ok.2 ⟨hi, rfl⟩
        simp [keyText, Key.printed?, hi, htext, bind, Except.bind, eq_comm]
      · cases htext : Numeral.integerText i with
        | ok ds => exact absurd (Numeral.integerText_eq_ok.1 htext).1 hi
        | error f => simp [keyText, Key.printed?, hi, htext, bind, Except.bind]
    | _ => simp [keyText, Key.printed?, eq_comm]

/-! ### Trees of values -/

/-- The tree that is written for a scalar. -/
inductive PrintsScalar : Scalar → Node → Prop
  | null : PrintsScalar .null (.word .null)
  | truth (b : Bool) : PrintsScalar (.bool b) (.word (.truth b))
  | int {i : ℤ} {n : Number} : Writable i → n.chars = Numeral.integerDigits i → n.value = .int i →
    n.isInteger = true → n.whole.chars = Nat.toDigits 10 i.natAbs → PrintsScalar (.int i) (.number n)
  | nan (common : Bool) : PrintsScalar (.float (.nan common)) (.word .nan)
  | infinity (negative : Bool) : PrintsScalar (.float (.infinite negative)) (.word (.infinity negative))
  | float {x : Binary64} {n : Number} : x.isFinite = true → n.chars = (floatText x).toList → n.value = .float x →
    n.isInteger = false → (∀ e, n.exponent = some e → e.sign.isSome = true) → PrintsScalar (.float x) (.number n)
  | str {s : String} {b : Body} : Spells s b → PrintsScalar (.str s) (.text b)

/-- The line break in front of a level, with the blanks of the level. -/
def lineBlanks (level : ℕ) : Blanks := ⟨'\n', rfl⟩ :: List.replicate (2 * level) ⟨' ', rfl⟩

@[simp] theorem lineBlanks_chars (level : ℕ) : (lineBlanks level).chars = newline level := by
  simp [lineBlanks, Blanks.chars, newline]

/-- The blank behind a colon. -/
def oneBlank : Blanks := [⟨' ', rfl⟩]

@[simp] theorem oneBlank_chars : oneBlank.chars = [' '] := rfl

mutual

/-- The tree that is written for a value at a level. -/
inductive Prints : ℕ → Value → Node → Prop
  | scalar {level : ℕ} {s : Scalar} {t : Node} : PrintsScalar s t → Prints level (.scalar s) t
  | emptyList {level : ℕ} : Prints level (.list []) (.emptyList [])
  | list {level : ℕ} {vs : List Value} {items : Items} : PrintsItems level vs items →
    Prints level (.list vs) (.list items)
  | emptyMap {level : ℕ} : Prints level (.map []) (.emptyObject [])
  | map {level : ℕ} {es : Entries} {members : Members} : PrintsMembers level es members →
    Prints level (.map es) (.object members)

/-- The items that are written for values. -/
inductive PrintsItems : ℕ → List Value → Items → Prop
  | last {level : ℕ} {v : Value} {t : Node} : Prints (level + 1) v t →
    PrintsItems level [v] (.last (lineBlanks (level + 1)) t (lineBlanks level))
  | more {level : ℕ} {v : Value} {vs : List Value} {t : Node} {items : Items} : Prints (level + 1) v t →
    PrintsItems level vs items → PrintsItems level (v :: vs) (.more (lineBlanks (level + 1)) t [] items)

/-- The members that are written for entries. -/
inductive PrintsMembers : ℕ → Entries → Members → Prop
  | last {level : ℕ} {k : Key} {name : String} {b : Body} {v : Value} {t : Node} : k.printed? = some name →
    Spells name b → Prints (level + 1) v t →
    PrintsMembers level [(k, v)] (.last (lineBlanks (level + 1)) b [] oneBlank t (lineBlanks level))
  | more {level : ℕ} {k : Key} {name : String} {b : Body} {v : Value} {es : Entries} {t : Node} {members : Members} :
    k.printed? = some name → Spells name b → Prints (level + 1) v t → PrintsMembers level es members →
    PrintsMembers level ((k, v) :: es) (.more (lineBlanks (level + 1)) b [] oneBlank t [] members)

end

theorem exists_printsScalar {s : Scalar} {cs : List Char} (h : scalarText s = .ok cs) :
    ∃ t, PrintsScalar s t ∧ t.chars = cs := by
  cases s with
  | null =>
    cases h
    exact ⟨_, .null, rfl⟩
  | bool b =>
    cases h
    exact ⟨_, .truth b, by cases b <;> rfl⟩
  | int i =>
    obtain ⟨hi, rfl⟩ := Numeral.integerText_eq_ok.1 h
    obtain ⟨n, hchars, hvalue, hinteger, hwhole⟩ := exists_number_int i
    exact ⟨.number n, .int hi hchars hvalue hinteger hwhole, hchars⟩
  | float x =>
    cases h
    cases x with
    | nan common => exact ⟨_, .nan common, rfl⟩
    | infinite negative => exact ⟨_, .infinity negative, by cases negative <;> rfl⟩
    | finite negative biased fraction =>
      obtain ⟨n, hchars, hvalue, hinteger, hsigned⟩ := exists_number_float negative biased fraction
      exact ⟨.number n, .float rfl hchars hvalue hinteger hsigned, hchars⟩
  | str s =>
    cases h
    have hb := spells_spelled s
    exact ⟨.text (spelled s), .str hb, hb.quoted_eq⟩
  | _ => cases h

mutual

/-- **Whatever is written for a value is the text of a tree.** -/
theorem exists_prints : (v : Value) → (level : ℕ) → (cs : List Char) → valueText level v = .ok cs →
    ∃ t, Prints level v t ∧ t.chars = cs
  | .scalar s, level, cs, h => by
    obtain ⟨t, ht, hchars⟩ := exists_printsScalar (by simpa [valueText] using h)
    exact ⟨t, .scalar ht, hchars⟩
  | .list [], level, cs, h => by
    cases h
    exact ⟨_, .emptyList, rfl⟩
  | .list (v :: vs), level, cs, h => by
    rw [valueText] at h
    obtain ⟨head, hhead, h⟩ := exists_of_bind_eq_ok h
    obtain ⟨tail, htail, h⟩ := exists_of_bind_eq_ok h
    cases h
    have htext : itemsText (level + 1) (v :: vs) = .ok (',' :: newline (level + 1) ++ head ++ tail) := by
      rw [itemsText, hhead, htail]
      rfl
    obtain ⟨items, hitems, hchars⟩ := exists_printsItems (v :: vs) level _ (by simp) htext
    refine ⟨_, .list hitems, ?_⟩
    have hinside : items.chars = newline (level + 1) ++ head ++ tail ++ newline level := by simpa using hchars
    rw [Node.chars, hinside]
    simp
  | .set items, level, cs, h => by cases h
  | .map [], level, cs, h => by
    cases h
    exact ⟨_, .emptyMap, rfl⟩
  | .map ((k, v) :: es), level, cs, h => by
    rw [valueText] at h
    obtain ⟨key, hkey, h⟩ := exists_of_bind_eq_ok h
    obtain ⟨head, hhead, h⟩ := exists_of_bind_eq_ok h
    obtain ⟨tail, htail, h⟩ := exists_of_bind_eq_ok h
    cases h
    have htext : membersText (level + 1) ((k, v) :: es)
        = .ok (',' :: newline (level + 1) ++ key ++ [':', ' '] ++ head ++ tail) := by
      rw [membersText, hkey, hhead, htail]
      rfl
    obtain ⟨members, hmembers, hchars⟩ := exists_printsMembers ((k, v) :: es) level _ (by simp) htext
    refine ⟨_, .map hmembers, ?_⟩
    have hinside : members.chars = newline (level + 1) ++ key ++ [':', ' '] ++ head ++ tail ++ newline level := by
      simpa using hchars
    rw [Node.chars, hinside]
    simp
  | .enclosing levels, level, cs, h => by cases h

/-- Whatever is written for items is the text of items. -/
theorem exists_printsItems : (vs : List Value) → (level : ℕ) → (cs : List Char) → vs ≠ [] →
    itemsText (level + 1) vs = .ok cs →
    ∃ items, PrintsItems level vs items ∧ ',' :: items.chars = cs ++ newline level
  | [], level, cs, hne, h => absurd rfl hne
  | v :: vs, level, cs, _, h => by
    rw [itemsText] at h
    obtain ⟨head, hhead, h⟩ := exists_of_bind_eq_ok h
    obtain ⟨tail, htail, h⟩ := exists_of_bind_eq_ok h
    cases h
    obtain ⟨t, ht, rfl⟩ := exists_prints v (level + 1) head hhead
    by_cases hvs : vs = []
    · subst hvs
      cases htail
      exact ⟨_, .last ht, by simp [Items.chars]⟩
    · obtain ⟨items, hitems, hchars⟩ := exists_printsItems vs level tail hvs htail
      refine ⟨_, .more ht hitems, ?_⟩
      rw [Items.chars, hchars]
      simp

/-- Whatever is written for entries is the text of members. -/
theorem exists_printsMembers : (es : Entries) → (level : ℕ) → (cs : List Char) → es ≠ [] →
    membersText (level + 1) es = .ok cs →
    ∃ members, PrintsMembers level es members ∧ ',' :: members.chars = cs ++ newline level
  | [], level, cs, hne, h => absurd rfl hne
  | (k, v) :: es, level, cs, _, h => by
    rw [membersText] at h
    obtain ⟨key, hkey, h⟩ := exists_of_bind_eq_ok h
    obtain ⟨head, hhead, h⟩ := exists_of_bind_eq_ok h
    obtain ⟨tail, htail, h⟩ := exists_of_bind_eq_ok h
    cases h
    obtain ⟨t, ht, rfl⟩ := exists_prints v (level + 1) head hhead
    obtain ⟨name, hname, rfl⟩ := keyText_eq_ok.1 hkey
    have hb := spells_spelled name
    by_cases hes : es = []
    · subst hes
      cases htail
      refine ⟨_, .last hname hb ht, ?_⟩
      simp [Members.chars, nameChars, ← hb.quoted_eq]
    · obtain ⟨members, hmembers, hchars⟩ := exists_printsMembers es level tail hes htail
      refine ⟨_, .more hname hb ht hmembers, ?_⟩
      rw [Members.chars, hchars]
      simp [nameChars, ← hb.quoted_eq]

end

end Json

/-! ### What the trees denote -/

namespace Scalar

/-- The scalars that JSON knows. -/
def IsJson : Scalar → Prop
  | null | bool _ | int _ | float _ | str _ => True
  | _ => False

/-- The scalars that JSON can say: numbers have to be finite, and integers short enough to be written. -/
def Fits : Scalar → Prop
  | null | bool _ | str _ => True
  | int i => Writable i
  | float x => x.isFinite = true
  | _ => False

instance : DecidablePred Fits
  | null | bool _ | str _ => .isTrue trivial
  | int i => inferInstanceAs (Decidable (Writable i))
  | float x => inferInstanceAs (Decidable (x.isFinite = true))
  | bytes _ | date _ | dateTime _ | foreign _ => .isFalse id

end Scalar

namespace Json

theorem PrintsScalar.value_eq {s : Scalar} {t : Node} (h : PrintsScalar s t) (hstrict : t.isStrict = true) :
    t.value = .scalar s := by
  cases h with
  | null => rfl
  | truth b => rfl
  | int _ _ hvalue => rw [Node.value, hvalue]
  | nan common => cases hstrict
  | infinity negative => cases hstrict
  | float _ _ hvalue => rw [Node.value, hvalue]
  | str hb => rw [Node.value, hb.text_eq]

theorem PrintsScalar.isStrict_iff {s : Scalar} {t : Node} (h : PrintsScalar s t) : t.isStrict = true ↔ s.Fits := by
  cases h with
  | null => simp [Node.isStrict, Word.isStrict, Scalar.Fits]
  | truth b => simp [Node.isStrict, Word.isStrict, Scalar.Fits]
  | int hi => simp [Node.isStrict, Scalar.Fits, hi]
  | nan common => simp [Node.isStrict, Word.isStrict, Scalar.Fits, Binary64.isFinite]
  | infinity negative => simp [Node.isStrict, Word.isStrict, Scalar.Fits, Binary64.isFinite]
  | float hx => simp [Node.isStrict, Scalar.Fits, hx]
  | str hb => simp [Node.isStrict, Scalar.Fits]

variable {p : Scalar → Prop}

mutual

/-- **A strict tree denotes the value that it is written for**, when the value is keyed by texts. -/
theorem Prints.value_eq {level : ℕ} {v : Value} {t : Node} : Prints level v t → v.TextKeyed p →
    t.isStrict = true → t.value = v
  | .scalar hs, _, hstrict => hs.value_eq hstrict
  | .emptyList, _, _ => rfl
  | .list hitems, hv, hstrict => by
    cases hv with
    | list hvs => rw [Node.value, hitems.values_eq hvs hstrict]
  | .emptyMap, _, _ => rfl
  | .map hmembers, hv, hstrict => by
    cases hv with
    | map hdistinct hkeys hvalues =>
      rw [Node.value, hmembers.pairs_eq hkeys hvalues hstrict, Entries.ofPairs_of_distinct hdistinct]

theorem PrintsItems.values_eq {level : ℕ} {vs : List Value} {items : Items} : PrintsItems level vs items →
    (∀ v ∈ vs, v.TextKeyed p) → items.isStrict = true → items.values = vs
  | .last ht, hvs, hstrict => by
    rw [Items.values, ht.value_eq (hvs _ List.mem_cons_self) hstrict]
  | .more ht hitems, hvs, hstrict => by
    rw [Items.isStrict, Bool.and_eq_true] at hstrict
    rw [Items.values, ht.value_eq (hvs _ List.mem_cons_self) hstrict.1,
      hitems.values_eq (fun v hv => hvs v (List.mem_cons_of_mem _ hv)) hstrict.2]

theorem PrintsMembers.pairs_eq {level : ℕ} {es : Entries} {members : Members} : PrintsMembers level es members →
    (∀ e ∈ es, ∃ name, e.1 = .str name) → (∀ e ∈ es, e.2.TextKeyed p) → members.isStrict = true →
    members.pairs = es
  | .last (k := k) hname hb ht, hkeys, hvalues, hstrict => by
    obtain ⟨text, rfl⟩ : ∃ text, k = .str text := hkeys _ List.mem_cons_self
    cases hname
    rw [Members.pairs, hb.text_eq, ht.value_eq (hvalues _ List.mem_cons_self) hstrict]
  | .more (k := k) hname hb ht hmembers, hkeys, hvalues, hstrict => by
    obtain ⟨text, rfl⟩ : ∃ text, k = .str text := hkeys _ List.mem_cons_self
    cases hname
    rw [Members.isStrict, Bool.and_eq_true] at hstrict
    rw [Members.pairs, hb.text_eq, ht.value_eq (hvalues _ List.mem_cons_self) hstrict.1,
      hmembers.pairs_eq (fun e he => hkeys e (List.mem_cons_of_mem _ he))
        (fun e he => hvalues e (List.mem_cons_of_mem _ he)) hstrict.2]

end

mutual

/-- **The tree of a value is strict exactly when all its numbers are finite** and its integers are short enough. -/
theorem Prints.isStrict_iff {level : ℕ} {v : Value} {t : Node} : Prints level v t → v.TextKeyed p →
    (t.isStrict = true ↔ v.TextKeyed Scalar.Fits)
  | .scalar hs, _ => by
    rw [hs.isStrict_iff]
    exact ⟨.scalar, fun h => by cases h; assumption⟩
  | .emptyList, _ => ⟨fun _ => .list (by simp), fun _ => rfl⟩
  | .list hitems, hv => by
    cases hv with
    | list hvs =>
      rw [Node.isStrict, hitems.isStrict_iff hvs]
      exact ⟨.list, fun h => by cases h; assumption⟩
  | .emptyMap, _ => ⟨fun _ => Value.textKeyed_nil, fun _ => rfl⟩
  | .map hmembers, hv => by
    cases hv with
    | map hdistinct hkeys hvalues =>
      rw [Node.isStrict, hmembers.isStrict_iff hvalues]
      exact ⟨.map hdistinct hkeys, fun h => by cases h; assumption⟩

theorem PrintsItems.isStrict_iff {level : ℕ} {vs : List Value} {items : Items} : PrintsItems level vs items →
    (∀ v ∈ vs, v.TextKeyed p) → (items.isStrict = true ↔ ∀ v ∈ vs, v.TextKeyed Scalar.Fits)
  | .last ht, hvs => by
    rw [Items.isStrict, ht.isStrict_iff (hvs _ List.mem_cons_self), List.forall_mem_singleton]
  | .more ht hitems, hvs => by
    rw [Items.isStrict, Bool.and_eq_true, ht.isStrict_iff (hvs _ List.mem_cons_self),
      hitems.isStrict_iff fun v hv => hvs v (List.mem_cons_of_mem _ hv), List.forall_mem_cons]

theorem PrintsMembers.isStrict_iff {level : ℕ} {es : Entries} {members : Members} :
    PrintsMembers level es members → (∀ e ∈ es, e.2.TextKeyed p) →
    (members.isStrict = true ↔ ∀ e ∈ es, e.2.TextKeyed Scalar.Fits)
  | .last _ _ ht, hvalues => by
    rw [Members.isStrict, ht.isStrict_iff (hvalues _ List.mem_cons_self), List.forall_mem_singleton]
  | .more _ _ ht hmembers, hvalues => by
    rw [Members.isStrict, Bool.and_eq_true, ht.isStrict_iff (hvalues _ List.mem_cons_self),
      hmembers.isStrict_iff fun e he => hvalues e (List.mem_cons_of_mem _ he), List.forall_mem_cons]

end

/-! ### What can be written -/

theorem exists_scalarText {s : Scalar} (h : s.Fits) : ∃ cs, scalarText s = .ok cs := by
  cases s with
  | int i => exact ⟨_, Numeral.integerText_eq_ok.2 ⟨h, rfl⟩⟩
  | null => exact ⟨_, rfl⟩
  | bool b => exact ⟨_, rfl⟩
  | float x => exact ⟨_, rfl⟩
  | str s => exact ⟨_, rfl⟩
  | _ => exact h.elim

mutual

/-- **A value keyed by texts, the scalars of which fit, can be written.** -/
theorem exists_valueText : (v : Value) → (level : ℕ) → v.TextKeyed Scalar.Fits → ∃ cs, valueText level v = .ok cs
  | .scalar s, level, hv => by
    cases hv with
    | scalar hs => exact exists_scalarText hs
  | .list [], level, _ => ⟨_, rfl⟩
  | .list (v :: vs), level, hv => by
    cases hv with
    | list hvs =>
      obtain ⟨head, hhead⟩ := exists_valueText v (level + 1) (hvs v List.mem_cons_self)
      obtain ⟨tail, htail⟩ := exists_itemsText vs (level + 1) fun w hw => hvs w (List.mem_cons_of_mem _ hw)
      exact ⟨_, by rw [valueText, hhead, htail]; rfl⟩
  | .set items, level, hv => by cases hv
  | .map [], level, _ => ⟨_, rfl⟩
  | .map ((k, v) :: es), level, hv => by
    cases hv with
    | map _ hkeys hvalues =>
      obtain ⟨name, rfl⟩ : ∃ name, k = .str name := hkeys _ List.mem_cons_self
      obtain ⟨head, hhead⟩ := exists_valueText v (level + 1) (hvalues _ List.mem_cons_self)
      obtain ⟨tail, htail⟩ := exists_membersText es (level + 1)
        (fun e he => hkeys e (List.mem_cons_of_mem _ he)) fun e he => hvalues e (List.mem_cons_of_mem _ he)
      exact ⟨_, by rw [valueText, keyText, hhead, htail]; rfl⟩
  | .enclosing levels, level, hv => by cases hv

theorem exists_itemsText : (vs : List Value) → (level : ℕ) → (∀ v ∈ vs, v.TextKeyed Scalar.Fits) →
    ∃ cs, itemsText level vs = .ok cs
  | [], level, _ => ⟨_, rfl⟩
  | v :: vs, level, hvs => by
    obtain ⟨head, hhead⟩ := exists_valueText v level (hvs v List.mem_cons_self)
    obtain ⟨tail, htail⟩ := exists_itemsText vs level fun w hw => hvs w (List.mem_cons_of_mem _ hw)
    exact ⟨_, by rw [itemsText, hhead, htail]; rfl⟩

theorem exists_membersText : (es : Entries) → (level : ℕ) → (∀ e ∈ es, ∃ name, e.1 = .str name) →
    (∀ e ∈ es, e.2.TextKeyed Scalar.Fits) → ∃ cs, membersText level es = .ok cs
  | [], level, _, _ => ⟨_, rfl⟩
  | (k, v) :: es, level, hkeys, hvalues => by
    obtain ⟨name, rfl⟩ : ∃ name, k = .str name := hkeys _ List.mem_cons_self
    obtain ⟨head, hhead⟩ := exists_valueText v level (hvalues _ List.mem_cons_self)
    obtain ⟨tail, htail⟩ := exists_membersText es level (fun e he => hkeys e (List.mem_cons_of_mem _ he))
      fun e he => hvalues e (List.mem_cons_of_mem _ he)
    exact ⟨_, by rw [membersText, keyText, hhead, htail]; rfl⟩

end

/-! ### Whole documents -/

/-- The text that is written for a document. -/
def sourceOf (t : Node) : Source := ⟨[], t, [⟨'\n', rfl⟩]⟩

theorem render_eq_ok {v : Value} {text : String} (h : render v = .ok text) :
    ∃ t, Prints 0 v t ∧ text.toList = (sourceOf t).chars := by
  rw [render] at h
  obtain ⟨cs, hcs, h⟩ := exists_of_bind_eq_ok h
  cases h
  obtain ⟨t, ht, rfl⟩ := exists_prints v 0 cs hcs
  exact ⟨t, ht, by simp [sourceOf, Source.chars, Blanks.chars]⟩

end Json

/-! ### Numbers that fit -/

namespace Value

mutual

/-- Can every scalar of a value be said in JSON, with all its parts in lists and mappings? -/
def fits : Value → Bool
  | scalar s => decide s.Fits
  | list vs => allFit vs
  | map es => membersFit es
  | set _ | enclosing _ => false

/-- Do all values fit? -/
def allFit : List Value → Bool
  | [] => true
  | v :: vs => fits v && allFit vs

/-- Do the values of all entries fit? -/
def membersFit : List (Key × Value) → Bool
  | [] => true
  | (_, v) :: es => fits v && membersFit es

end

theorem allFit_iff (vs : List Value) : allFit vs = true ↔ ∀ v ∈ vs, v.fits = true := by
  induction vs with
  | nil => simp [allFit]
  | cons v vs ih => rw [allFit, Bool.and_eq_true, ih, List.forall_mem_cons]

theorem membersFit_iff (es : Entries) : membersFit es = true ↔ ∀ e ∈ es, e.2.fits = true := by
  induction es with
  | nil => simp [membersFit]
  | cons e es ih =>
    obtain ⟨k, v⟩ := e
    rw [membersFit, Bool.and_eq_true, ih, List.forall_mem_cons]

/-- For a value keyed by texts it is the scalars alone that may not fit. -/
theorem TextKeyed.fits_iff {p : Scalar → Prop} {v : Value} (h : v.TextKeyed p) :
    v.TextKeyed Scalar.Fits ↔ v.fits = true := by
  induction h with
  | scalar hs =>
    rw [fits, decide_eq_true_iff]
    exact ⟨fun h => by cases h; assumption, .scalar⟩
  | @list vs hvs ih =>
    rw [fits, allFit_iff]
    constructor
    · rintro (_ | hvs) v hv
      exact (ih v hv).1 (hvs v hv)
    · exact fun hall => .list fun v hv => (ih v hv).2 (hall v hv)
  | @map es hdistinct hkeys hvalues ih =>
    rw [fits, membersFit_iff]
    constructor
    · rintro (_ | _ | ⟨-, -, hvalues⟩) e he
      exact (ih e he).1 (hvalues e he)
    · exact fun hall => .map hdistinct hkeys fun e he => (ih e he).2 (hall e he)

end Value

namespace Json

/-- **What the text of a value keyed by texts denotes**: that value when all of its numbers fit, and otherwise the
text is no JSON. -/
theorem denotes_iff {v : Value} {text : String} (hv : v.TextKeyed p) (hrender : render v = .ok text) :
    (Denotes text v ↔ v.fits = true) ∧ Json.read? text = if v.fits then some v else none := by
  obtain ⟨t, ht, htext⟩ := render_eq_ok hrender
  have hstrict : (sourceOf t).isStrict = true ↔ v.fits = true := (ht.isStrict_iff hv).trans hv.fits_iff
  have hvalue : v.fits = true → (sourceOf t).value = v := fun hfits =>
    ht.value_eq (hv.fits_iff.2 hfits) (hstrict.2 hfits)
  have hread : Json.read? text = if v.fits then some v else none := by
    rw [read?_source (sourceOf t) htext]
    by_cases hfits : v.fits = true
    · rw [if_pos (hstrict.2 hfits), if_pos hfits, hvalue hfits]
    · rw [if_neg fun h => hfits (hstrict.1 h), if_neg hfits]
  refine ⟨⟨fun hdenotes => ?_, fun hfits => ⟨sourceOf t, hstrict.2 hfits, htext, hvalue hfits⟩⟩, hread⟩
  by_contra hfits
  rw [if_neg hfits, hdenotes.read?] at hread
  cases hread

/-- A value the scalars of which fit can be written. -/
theorem exists_render {v : Value} (hv : v.TextKeyed Scalar.Fits) : ∃ text, render v = .ok text := by
  obtain ⟨cs, hcs⟩ := exists_valueText v 0 hv
  exact ⟨String.ofList (cs ++ ['\n']), by rw [render, hcs]; rfl⟩

end Json

end RouteDoc
