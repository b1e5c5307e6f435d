import RouteDoc.Proofs.Yaml.Faithfulness
import RouteDoc.Proofs.Yaml.Quotes

/-!
# Values that survive

Which values come back when what is written for them as JSON is read as YAML.  Numbers with an exponent need a
point; the characters of texts have to be admitted and their line ends have to survive folding; names must not be
long and must not hold line ends.

* `Json.textSurvives`, `Json.nameSurvives` — texts and names;
* `Value.survives` — values;
* `Json.Prints.kept_eq` — the tree of a value meets the conditions exactly when the value survives;
* `Json.Prints.unpaired` — no character is written in two halves.
-/

namespace RouteDoc

open Yaml

namespace Json

/-! ### Texts -/

/-- Does a text between quotes come back?  Its characters are admitted, and its line ends survive. -/
def textSurvives (s : String) : Bool :=
  (spelled s).chars.all isAdmitted && (spelled s).refold? == some s.toList

/-- Does a name come back as a key? -/
def nameSurvives (name : String) : Bool := textSurvives name && isNear (spelled name) []

/-- Does the text of a number with a point have one? -/
def floatSurvives (x : Binary64) : Bool := (floatText x).toList.contains '.'

end Json

/-- Does a scalar come back? -/
def Scalar.survives : Scalar → Bool
  | .str s => Json.textSurvives s
  | .float x => Json.floatSurvives x
  | _ => true

/-- The scalars of a document that JSON knows: its floats are finite. -/
def Scalar.IsFinite : Scalar → Prop
  | .null | .bool _ | .int _ | .str _ => True
  | .float x => x.isFinite = true
  | _ => False

namespace Value

mutual

/-- Does a value come back when its JSON is read? -/
def survives : Value → Bool
  | scalar s => s.survives
  | list vs => allSurvive vs
  | map es => membersSurvive es
  | set _ | enclosing _ => false

/-- Do all values come back? -/
def allSurvive : List Value → Bool
  | [] => true
  | v :: vs => survives v && allSurvive vs

/-- Do the names and values of all entries come back? -/
def membersSurvive : List (Key × Value) → Bool
  | [] => true
  | (k, v) :: es => k.text?.any Json.nameSurvives && (survives v && membersSurvive es)

end

end Value

namespace Json

/-! ### Spellings are read alike -/

theorem Piece.first_congr {p q : Piece} (h : p.chars = q.chars) : p.first = q.first := by
  obtain ⟨cs, hp⟩ := p.exists_cons
  obtain ⟨ds, hq⟩ := q.exists_cons
  rw [hp, hq] at h
  exact (List.cons.inj h).1

/-- How a text is read depends on its characters and on what they stand for. -/
theorem Body.refoldAfter?_congr {b b' : Body}
    (h : List.Forall₂ (fun p q : Piece => p.chars = q.chars ∧ p.char = q.char) b b') (held : Held) :
    b.chars = b'.chars ∧ refoldAfter? held b = refoldAfter? held b' := by
  induction h generalizing held with
  | nil => exact ⟨rfl, rfl⟩
  | @cons p q b b' hpq _ ih =>
    have hchars : Body.chars b = Body.chars b' := (ih held).1
    have hfirst : p.first = q.first := Piece.first_congr hpq.1
    have hspace : p.isSpace = q.isSpace := by rw [Piece.isSpace, Piece.isSpace, hfirst]
    have hends : p.endsLine = q.endsLine := by rw [Piece.endsLine, Piece.endsLine, hfirst]
    have hmark : beginsMark b = beginsMark b' := by rw [beginsMark, beginsMark, hchars]
    refine ⟨by rw [Body.chars_cons, Body.chars_cons, hpq.1, hchars], ?_⟩
    rw [refoldAfter?, refoldAfter?, hspace, hends, hmark, hpq.2, (ih _).2, (ih _).2, (ih _).2]

/-- All spellings of a text are read alike. -/
theorem Spells.eq_spelled {s : String} {b : Body} (h : Spells s b) :
    b.chars = (spelled s).chars ∧ b.refold? = (spelled s).refold? := by
  refine Body.refoldAfter?_congr ?_ (.blanks 0)
  rw [spelled, List.forall₂_map_right_iff]
  refine List.Forall₂.flip (List.Forall₂.imp (fun c p hp => ?_) h)
  exact ⟨hp.1.trans (pieceOf_spec c).1.symm, hp.2.trans (pieceOf_spec c).2.symm⟩

theorem Spells.map_char {s : String} {b : Body} (h : Spells s b) : b.map Piece.char = s.toList := by
  rw [← String.toList_ofList (l := b.map Piece.char), show String.ofList (b.map Piece.char) = s from h.text_eq]

theorem kept_text (b : Body) :
    Checks.kept.text b = (b.chars.all isAdmitted && b.refold? == some (b.map Piece.char)) := by
  show (b.chars.all isAdmitted && (b.refold?.isSome && (true && (true && b.refold? == some (b.map Piece.char))))) = _
  cases b.refold? with
  | none => rfl
  | some cs => rfl

theorem Spells.kept_text {s : String} {b : Body} (h : Spells s b) : Checks.kept.text b = textSurvives s := by
  rw [Json.kept_text, h.map_char, h.eq_spelled.1, h.eq_spelled.2, textSurvives]

theorem Spells.isNear_eq {s : String} {b : Body} (h : Spells s b) : isNear b [] = isNear (spelled s) [] := by
  rw [isNear, isNear, h.eq_spelled.1]

theorem length_quotedChar_le (c : Char) : (quotedChar c).length ≤ 6 := by
  unfold quotedChar
  split_ifs <;> simp

/-- No character is written in two halves, which take twelve characters. -/
theorem Spells.unpaired {s : String} {b : Body} (h : Spells s b) : b.unpaired = true := by
  rw [Body.unpaired, List.all_eq_true]
  intro p hp
  obtain ⟨c, hchars⟩ : ∃ c, p.chars = quotedChar c := by
    unfold Spells at h
    generalize s.toList = cs at h
    induction h with
    | nil => cases hp
    | cons hq _ ih =>
      rcases List.mem_cons.1 hp with rfl | hp
      · exact ⟨_, hq.1⟩
      · exact ih hp
  cases p with
  | plain | letter | code => rfl
  | pair high low hpair =>
    have hlength : (quotedChar c).length = 12 := by
      rw [← hchars]
      rfl
    have hle := length_quotedChar_le c
    omega

/-! ### Scalars -/

theorem length_toDigits_le {n k : ℕ} (hk : 0 < k) (h : n < Nat.pow 10 k) : (Nat.toDigits 10 n).length ≤ k :=
  (Nat.length_toDigits_le_iff (by decide) hk).2 h

theorem fits_of_writable {n : Number} {i : ℤ} (hi : Writable i) (h : n.whole.chars = Nat.toDigits 10 i.natAbs) :
    n.fits = true := by
  have hlength : n.whole.chars.length ≤ Numeral.digitLimit := by
    rw [h]
    exact length_toDigits_le (by decide) hi
  rw [Number.fits, decide_eq_true hlength, Bool.or_true]

theorem Digits.point_notMem (ds : Digits) : '.' ∉ ds.chars := by
  intro h
  exact Bool.noConfusion (ds.all_digits '.' h)

theorem Exponent.point_notMem (e : Exponent) : '.' ∉ e.chars := by
  have hsign : '.' ∉ signChars e.sign := by
    cases e.sign with
    | none => exact List.not_mem_nil
    | some minus => cases minus <;> decide
  have hmark : '.' ≠ (if e.capital then 'E' else 'e') := by
    cases e.capital <;> decide
  rw [chars, List.mem_cons, List.mem_append]
  rintro (h | h | h)
  · exact hmark h
  · exact hsign h
  · exact e.digits.point_notMem h

/-- A number has a point in its text exactly when there are places behind one. -/
theorem Number.contains_point (n : Number) : n.chars.contains '.' = n.places.isSome := by
  have hsign : '.' ∉ (if n.negative then ['-'] else []) := by
    cases n.negative <;> decide
  have hexponent : '.' ∉ (n.exponent.map Exponent.chars).getD [] := by
    cases n.exponent with
    | none => exact List.not_mem_nil
    | some e => exact e.point_notMem
  have hiff : '.' ∈ n.chars ↔ n.places.isSome = true := by
    rw [chars, tail, List.mem_append, List.mem_append, List.mem_append, or_iff_right hsign,
      or_iff_right n.whole.point_notMem, or_iff_left hexponent]
    cases n.places with
    | none => simp
    | some ds => simp
  rw [List.contains_eq_mem, Bool.eq_iff_iff, decide_eq_true_iff, hiff]

theorem PrintsScalar.kept_eq {s : Scalar} {t : Node} (h : PrintsScalar s t) (hs : s.Fits) :
    t.all .kept = s.survives := by
  cases h with
  | null | truth => rfl
  | @int i n hi hchars hvalue hinteger hwhole =>
    show (true && (true && (true && (n.fits && (n.isInteger || n.hasFloatLook))))) = true
    rw [fits_of_writable hi hwhole, hinteger]
    rfl
  | nan | infinity => cases hs
  | @float x n hx hchars hvalue hinteger hsign =>
    show (true && (true && (true && (n.fits && (n.isInteger || n.hasFloatLook))))) = floatSurvives x
    have hexponent : (n.exponent.all fun e => e.sign.isSome) = true := by
      cases he : n.exponent with
      | none => rfl
      | some e => exact hsign e he
    rw [floatSurvives, ← hchars, n.contains_point, Number.fits, hinteger, Number.hasFloatLook, hexponent,
      Bool.and_true]
    rfl
  | str hb => exact hb.kept_text

/-! ### Values -/

theorem untabbed_newline (level : ℕ) : (lineBlanks level).untabbed = true := by
  rw [Blanks.untabbed, lineBlanks_chars, newline, List.all_cons, List.all_replicate]
  simp

/-- The conditions on the blanks of printed text are met. -/
theorem kept_blanks (level : ℕ) : Checks.kept.blanks (lineBlanks level) = true := by
  show (true && ((lineBlanks level).untabbed && (true && (true && true)))) = true
  rw [untabbed_newline]
  rfl

/-- The conditions on what stands in front of a value in an object. -/
theorem kept_name {s : String} {b : Body} (h : Spells s b) (level : ℕ) :
    (Checks.kept.blanks (lineBlanks level) && (Checks.kept.text b && (Checks.kept.key b []
      && (Checks.kept.blanks [] && Checks.kept.blanks oneBlank)))) = nameSurvives s := by
  have hkey : Checks.kept.key b [] = isNear b [] := by
    show (true && (true && (isNear b [] && (true && true)))) = _
    rw [Bool.true_and, Bool.true_and, Bool.and_self, Bool.and_true]
  have hrest : (Checks.kept.blanks [] && Checks.kept.blanks oneBlank) = true := rfl
  rw [kept_blanks, Bool.true_and, hrest, Bool.and_true, h.kept_text, hkey, h.isNear_eq, nameSurvives]

mutual

/-- **The tree that is written for a value meets the conditions exactly when the value survives.** -/
theorem Prints.kept_eq {level : ℕ} {v : Value} {t : Node} : Prints level v t → v.TextKeyed Scalar.Fits →
    t.all .kept = v.survives
  | .scalar hs, hv => by
    cases hv with
    | scalar hfits => exact hs.kept_eq hfits
  | .emptyList, _ | .emptyMap, _ => rfl
  | .list hitems, hv => by
    cases hv with
    | list hvs => exact hitems.kept_eq hvs
  | .map hmembers, hv => by
    cases hv with
    | map _ hkeys hvalues => exact hmembers.kept_eq hkeys hvalues

theorem PrintsItems.kept_eq {level : ℕ} {vs : List Value} {items : Items} : PrintsItems level vs items →
    (∀ v ∈ vs, v.TextKeyed Scalar.Fits) → items.all .kept = Value.allSurvive vs
  | .last ht, hvs => by
    rw [Items.all, kept_blanks, kept_blanks, ht.kept_eq (hvs _ List.mem_cons_self), Value.allSurvive,
      Value.allSurvive, Bool.true_and]
  | .more ht hitems, hvs => by
    have hnone : Checks.kept.blanks [] = true := rfl
    rw [Items.all, kept_blanks, hnone, ht.kept_eq (hvs _ List.mem_cons_self),
      hitems.kept_eq fun v hv => hvs v (List.mem_cons_of_mem _ hv), Value.allSurvive, Bool.true_and, Bool.true_and]

theorem PrintsMembers.kept_eq {level : ℕ} {es : Entries} {members : Members} : PrintsMembers level es members →
    (∀ e ∈ es, ∃ name, e.1 = .str name) → (∀ e ∈ es, e.2.TextKeyed Scalar.Fits) →
    members.all .kept = Value.membersSurvive es
  | .last (k := k) hname hb ht, hkeys, hvalues => by
    obtain ⟨text, rfl⟩ : ∃ text, k = .str text := hkeys _ List.mem_cons_self
    cases hname
    rw [Members.all, kept_name hb, ht.kept_eq (hvalues _ List.mem_cons_self), kept_blanks]
    rfl
  | .more (k := k) hname hb ht hmembers, hkeys, hvalues => by
    obtain ⟨text, rfl⟩ : ∃ text, k = .str text := hkeys _ List.mem_cons_self
    cases hname
    have hnone : Checks.kept.blanks [] = true := rfl
    rw [Members.all, kept_name hb, ht.kept_eq (hvalues _ List.mem_cons_self), hnone,
      hmembers.kept_eq (fun e he => hkeys e (List.mem_cons_of_mem _ he))
        fun e he => hvalues e (List.mem_cons_of_mem _ he)]
    rfl

end

mutual

/-- No text in the tree of a value is written with characters in two halves. -/
theorem Prints.unpaired {level : ℕ} {v : Value} {t : Node} : Prints level v t → t.all .unpaired = true
  | .scalar (.null) | .scalar (.truth _) | .scalar (.int _ _ _ _ _) | .scalar (.nan _) | .scalar (.infinity _)
  | .scalar (.float _ _ _ _ _) => rfl
  | .scalar (.str hb) => hb.unpaired
  | .emptyList | .emptyMap => rfl
  | .list hitems => hitems.unpaired
  | .map hmembers => hmembers.unpaired

theorem PrintsItems.unpaired {level : ℕ} {vs : List Value} {items : Items} :
    PrintsItems level vs items → items.all .unpaired = true
  | .last ht => by
    rw [Items.all, ht.unpaired]
    rfl
  | .more ht hitems => by
    rw [Items.all, ht.unpaired, hitems.unpaired]
    rfl

theorem PrintsMembers.unpaired {level : ℕ} {es : Entries} {members : Members} :
    PrintsMembers level es members → members.all .unpaired = true
  | .last _ hb ht => by
    rw [Members.all, show Checks.unpaired.text _ = true from hb.unpaired, ht.unpaired]
    rfl
  | .more _ hb ht hmembers => by
    rw [Members.all, show Checks.unpaired.text _ = true from hb.unpaired, ht.unpaired, hmembers.unpaired]
    rfl

end

/-! ### What can be written -/

theorem PrintsScalar.fits {s : Scalar} {t : Node} (h : PrintsScalar s t) (hs : s.IsFinite) : s.Fits := by
  cases h with
  | null | truth | str => trivial
  | int hi => exact hi
  | nan | infinity => cases hs
  | float hx => exact hx

mutual

/-- The integers of a value that was written are short enough. -/
theorem Prints.fits {level : ℕ} {v : Value} {t : Node} : Prints level v t → v.TextKeyed Scalar.IsFinite →
    v.TextKeyed Scalar.Fits
  | .scalar hs, hv => by
    cases hv with
    | scalar hfinite => exact .scalar (hs.fits hfinite)
  | .emptyList, _ => .list (by simp)
  | .list hitems, hv => by
    cases hv with
    | list hvs => exact .list (hitems.fits hvs)
  | .emptyMap, _ => Value.textKeyed_nil
  | .map hmembers, hv => by
    cases hv with
    | map hdistinct hkeys hvalues => exact .map hdistinct hkeys (hmembers.fits hvalues)

theorem PrintsItems.fits {level : ℕ} {vs : List Value} {items : Items} : PrintsItems level vs items →
    (∀ v ∈ vs, v.TextKeyed Scalar.IsFinite) → ∀ v ∈ vs, v.TextKeyed Scalar.Fits
  | .last ht, hvs => List.forall_mem_singleton.2 (ht.fits (hvs _ List.mem_cons_self))
  | .more ht hitems, hvs => List.forall_mem_cons.2
    ⟨ht.fits (hvs _ List.mem_cons_self), hitems.fits fun v hv => hvs v (List.mem_cons_of_mem _ hv)⟩

theorem PrintsMembers.fits {level : ℕ} {es : Entries} {members : Members} : PrintsMembers level es members →
    (∀ e ∈ es, e.2.TextKeyed Scalar.IsFinite) → ∀ e ∈ es, e.2.TextKeyed Scalar.Fits
  | .last _ _ ht, hvalues => List.forall_mem_singleton.2 (ht.fits (hvalues _ List.mem_cons_self))
  | .more _ _ ht hmembers, hvalues => List.forall_mem_cons.2
    ⟨ht.fits (hvalues _ List.mem_cons_self), hmembers.fits fun e he => hvalues e (List.mem_cons_of_mem _ he)⟩

end

/-- **What is written and survives**: a value with finite floats can be written exactly when its numbers fit, and then
its text survives being read exactly when the value does. -/
theorem survives_of_render {v : Value} {text : String} (hv : v.TextKeyed Scalar.IsFinite)
    (hrender : render v = .ok text) : v.fits = true ∧ ∃ s : Source, text.toList = s.chars ∧ s.isStrict = true
      ∧ s.value = v ∧ s.node.all .unpaired = true ∧ s.namesApart = true ∧ s.survives = v.survives := by
  obtain ⟨t, ht, htext⟩ := render_eq_ok hrender
  have hfits := ht.fits hv
  have hstrict : (sourceOf t).isStrict = true := (ht.isStrict_iff hfits).2 hfits
  refine ⟨hfits.fits_iff.1 hfits, sourceOf t, htext, hstrict, ht.value_eq hfits hstrict, ht.unpaired, ?_, ?_⟩
  · rw [show (sourceOf t).namesApart = t.namesApart from rfl, ht.namesApart_eq]
    exact hv.namesApart
  · rw [Source.survives_eq, ← ht.kept_eq hfits]
    rfl

end Json

end RouteDoc
