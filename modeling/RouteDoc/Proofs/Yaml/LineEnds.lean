import RouteDoc.Proofs.Json.Reading
import RouteDoc.Proofs.Yaml.Quotes
import RouteDoc.Proofs.Yaml.Rereading
import RouteDoc.Text.Blank

/-!
# Line ends between tokens

A file is read with every line end as a line feed.  In a JSON text carriage returns stand only between tokens, so
this makes another JSON text of it, which is read in the same way.

* `Node.unix` — a value with line feeds between its tokens;
* `unixLines_source` — the text of it;
* `Source.readable_unix`, `Source.reread_unix` — nothing else changes.
-/

namespace RouteDoc.Json

open Text Yaml

/-! ### Line feeds in the place of line ends -/

theorem unixLines_cons {c : Char} (cs : List Char) (h : c ≠ '\r') : unixLines (c :: cs) = c :: unixLines cs := by
  rw [unixLines, if_neg h]
  rintro rest rfl
  exact absurd rfl h

theorem unixLines_of_clean {ds : List Char} (h : '\r' ∉ ds) (cs : List Char) :
    unixLines (ds ++ cs) = ds ++ unixLines cs := by
  induction ds with
  | nil => rfl
  | cons d ds ih =>
    rw [List.cons_append, unixLines_cons _ fun heq => h (heq ▸ List.mem_cons_self ..),
      ih fun hmem => h (List.mem_cons_of_mem _ hmem)]
    rfl

theorem unixLines_append (ds : List Char) {cs : List Char} (h : cs.head? ≠ some '\n') :
    unixLines (ds ++ cs) = unixLines ds ++ unixLines cs := by
  induction ds using unixLines.induct with
  | case1 => rfl
  | case2 rest ih =>
    show '\n' :: unixLines (rest ++ cs) = '\n' :: unixLines rest ++ unixLines cs
    rw [ih]
    rfl
  | case3 c rest hpair ih =>
    have hpair' : c = '\r' → ∀ rest', rest ++ cs = '\n' :: rest' → False := by
      intro hc rest' heq
      cases rest with
      | nil => exact h (by rw [show cs = _ from heq]; rfl)
      | cons d rest =>
        obtain rfl := (List.cons.inj heq).1
        exact hpair _ hc rfl
    rw [List.cons_append, unixLines, unixLines, ih]
    · rfl
    · exact fun rest' hc heq => hpair rest' hc heq
    · exact fun rest' hc heq => hpair' hc rest' heq

/-- A condition that line ends meet alike holds of some character before and after. -/
theorem any_unixLines {p : Char → Bool} (hp : p '\r' = p '\n') (cs : List Char) : (unixLines cs).any p = cs.any p := by
  induction cs using unixLines.induct with
  | case1 => rfl
  | case2 rest ih =>
    show (p '\n' || (unixLines rest).any p) = (p '\r' || (p '\n' || rest.any p))
    rw [ih, hp, ← Bool.or_assoc, Bool.or_self]
  | case3 c rest hpair ih =>
    rw [unixLines, List.any_cons, List.any_cons, ih]
    · split
      · next hc => rw [hc, hp]
      · rfl
    · exact hpair

theorem all_unixLines {p : Char → Bool} (hp : p '\r' = p '\n') (cs : List Char) : (unixLines cs).all p = cs.all p := by
  rw [List.all_eq_not_any_not, List.all_eq_not_any_not, any_unixLines (p := fun c => !p c) (by rw [hp])]

theorem return_notMem_unixLines (cs : List Char) : '\r' ∉ unixLines cs := by
  induction cs using unixLines.induct with
  | case1 => exact List.not_mem_nil
  | case2 rest ih =>
    rw [unixLines, List.mem_cons]
    exact fun h => h.elim (by decide) ih
  | case3 c rest hpair ih =>
    rw [unixLines, List.mem_cons]
    · rintro (h | h)
      · split at h
        · exact absurd h (by decide)
        · next hc => exact hc h.symm
      · exact ih h
    · exact hpair

/-! ### Blanks -/

namespace Blanks

theorem isBlank_unixLines (bs : Blanks) : ∀ c ∈ unixLines bs.chars, isBlank c = true := by
  rw [← List.all_eq_true, all_unixLines rfl, List.all_eq_true]
  intro c hc
  obtain ⟨b, -, rfl⟩ := List.mem_map.1 hc
  exact b.2

/-- Blanks with line feeds. -/
def unix (bs : Blanks) : Blanks := (unixLines bs.chars).pmap Subtype.mk bs.isBlank_unixLines

@[simp] theorem chars_unix (bs : Blanks) : bs.unix.chars = unixLines bs.chars := by
  rw [unix, chars, List.map_pmap, List.pmap_eq_map, List.map_id']

theorem untabbed_unix (bs : Blanks) : bs.unix.untabbed = bs.untabbed := by
  rw [untabbed, chars_unix, all_unixLines rfl, untabbed]

/-- Blanks without carriage returns stay as they are. -/
theorem unix_of_clean {bs : Blanks} (h : '\r' ∉ bs.chars) : bs.unix = bs := by
  have hchars : bs.unix.chars = bs.chars := by
    have hclean := unixLines_of_clean h []
    rwa [List.append_nil, unixLines, List.append_nil, ← chars_unix] at hclean
  exact (List.map_inj_right fun _ _ => Subtype.ext).1 hchars

end Blanks

theorem isNear_unix (name : Body) (behind : Blanks) : isNear name behind.unix = isNear name behind := by
  by_cases hreturn : '\r' ∈ behind.chars
  · have hany : behind.chars.any isBreak = true := List.any_eq_true.2 ⟨'\r', hreturn, rfl⟩
    rw [isNear, isNear, List.any_append, List.any_append, Blanks.chars_unix, any_unixLines rfl, hany, Bool.or_true,
      Bool.not_true, Bool.false_and, Bool.false_and]
  · rw [Blanks.unix_of_clean hreturn]

/-! ### Values -/

mutual

/-- A value with line feeds between its tokens. -/
def Node.unix : Node → Node
  | .word w => .word w
  | .number n => .number n
  | .text b => .text b
  | .emptyList inside => .emptyList inside.unix
  | .list items => .list items.unix
  | .emptyObject inside => .emptyObject inside.unix
  | .object members => .object members.unix

/-- Items with line feeds between their tokens. -/
def Items.unix : Items → Items
  | .last before item after => .last before.unix item.unix after.unix
  | .more before item after rest => .more before.unix item.unix after.unix rest.unix

/-- Members with line feeds between their tokens. -/
def Members.unix : Members → Members
  | .last before name behind ahead item after =>
    .last before.unix name behind.unix ahead.unix item.unix after.unix
  | .more before name behind ahead item after rest =>
    .more before.unix name behind.unix ahead.unix item.unix after.unix rest.unix

end

theorem Node.head?_chars (t : Node) (cs : List Char) : (t.chars ++ cs).head? ≠ some '\n' := by
  obtain ⟨c, ds, hchars, hopening⟩ := t.exists_cons
  rw [hchars]
  rintro ⟨⟩
  exact Bool.noConfusion hopening

theorem Number.return_notMem (n : Number) : '\r' ∉ n.chars := by
  intro h
  rcases n.char_cases h with hc | hc
  · exact Bool.noConfusion hc
  · exact absurd hc (by decide)

theorem Word.return_notMem (w : Word) : '\r' ∉ w.chars := by
  cases w with
  | null | nan => decide
  | truth b => cases b <;> decide
  | infinity negative => cases negative <;> decide

theorem unixLines_blanks (bs : Blanks) {cs : List Char} (h : cs.head? ≠ some '\n') :
    unixLines (bs.chars ++ cs) = bs.unix.chars ++ unixLines cs := by
  rw [unixLines_append _ h, Blanks.chars_unix]

/-- Line feeds in what stands in front of a value in an object. -/
theorem unixLines_name (before : Blanks) (name : Body) (behind ahead : Blanks) {cs : List Char}
    (h : cs.head? ≠ some '\n') : unixLines (nameChars before name behind ahead ++ cs)
      = nameChars before.unix name behind.unix ahead.unix ++ unixLines cs := by
  have hquote : ∀ ds, unixLines ('"' :: (name.chars ++ ds)) = '"' :: (name.chars ++ unixLines ds) := by
    intro ds
    rw [unixLines_cons _ (by decide), unixLines_of_clean name.return_notMem]
  simp only [nameChars, List.append_assoc, List.cons_append]
  rw [unixLines_blanks before (by simp), hquote, unixLines_cons _ (by decide), unixLines_blanks behind (by simp),
    unixLines_cons _ (by decide), unixLines_blanks ahead h]

mutual

theorem Node.unixLines_append : (t : Node) → (cs : List Char) →
    unixLines (t.chars ++ cs) = t.unix.chars ++ unixLines cs
  | .word w, cs => unixLines_of_clean w.return_notMem cs
  | .number n, cs => unixLines_of_clean n.return_notMem cs
  | .text b, cs => by
    have hquoted : '\r' ∉ (Node.text b).chars := by
      simp [Node.chars, b.return_notMem]
    exact unixLines_of_clean hquoted cs
  | .emptyList inside, cs => by
    simp only [Node.unix, Node.chars, List.cons_append, List.append_assoc]
    rw [unixLines_cons _ (by decide), unixLines_blanks inside (by simp), List.nil_append,
      unixLines_cons _ (by decide)]
    rfl
  | .list items, cs => by
    simp only [Node.unix, Node.chars, List.cons_append, List.append_assoc]
    rw [unixLines_cons _ (by decide), items.unixLines_append (by simp), List.nil_append,
      unixLines_cons _ (by decide)]
    rfl
  | .emptyObject inside, cs => by
    simp only [Node.unix, Node.chars, List.cons_append, List.append_assoc]
    rw [unixLines_cons _ (by decide), unixLines_blanks inside (by simp), List.nil_append,
      unixLines_cons _ (by decide)]
    rfl
  | .object members, cs => by
    simp only [Node.unix, Node.chars, List.cons_append, List.append_assoc]
    rw [unixLines_cons _ (by decide), members.unixLines_append (by simp), List.nil_append,
      unixLines_cons _ (by decide)]
    rfl

theorem Items.unixLines_append : (items : Items) → {cs : List Char} → cs.head? ≠ some '\n' →
    unixLines (items.chars ++ cs) = items.unix.chars ++ unixLines cs
  | .last before item after, cs, h => by
    simp only [Items.unix, Items.chars, List.append_assoc]
    rw [unixLines_blanks before (item.head?_chars _), item.unixLines_append, unixLines_blanks after h]
  | .more before item after rest, cs, h => by
    simp only [Items.unix, Items.chars, List.append_assoc, List.cons_append]
    rw [unixLines_blanks before (item.head?_chars _), item.unixLines_append, unixLines_blanks after (by simp),
      unixLines_cons _ (by decide), rest.unixLines_append h]

theorem Members.unixLines_append : (members : Members) → {cs : List Char} → cs.head? ≠ some '\n' →
    unixLines (members.chars ++ cs) = members.unix.chars ++ unixLines cs
  | .last before name behind ahead item after, cs, h => by
    simp only [Members.unix, Members.chars, List.append_assoc]
    rw [unixLines_name before name behind ahead (item.head?_chars _), item.unixLines_append, unixLines_blanks after h]
  | .more before name behind ahead item after rest, cs, h => by
    simp only [Members.unix, Members.chars, List.append_assoc, List.cons_append]
    rw [unixLines_name before name behind ahead (item.head?_chars _), item.unixLines_append,
      unixLines_blanks after (by simp), unixLines_cons _ (by decide), rest.unixLines_append h]

end

/-! ### What stays -/

mutual

theorem Node.reread_unix : (t : Node) → t.unix.reread = t.reread
  | .word _ | .number _ | .text _ | .emptyList _ | .emptyObject _ => rfl
  | .list items => congrArg Value.list items.reread_unix
  | .object members => congrArg (fun pairs => Value.map (Entries.ofPairs pairs)) members.reread_unix

theorem Items.reread_unix : (items : Items) → items.unix.reread = items.reread
  | .last _ item _ => congrArg (fun v => [v]) item.reread_unix
  | .more _ item _ rest => by rw [Items.unix, Items.reread, item.reread_unix, rest.reread_unix, Items.reread]

theorem Members.reread_unix : (members : Members) → members.unix.reread = members.reread
  | .last _ name _ _ item _ => congrArg (fun v => [(Key.str name.reread, v)]) item.reread_unix
  | .more _ name _ _ item _ rest => by
    rw [Members.unix, Members.reread, item.reread_unix, rest.reread_unix, Members.reread]

end

mutual

theorem Node.isStrict_unix : (t : Node) → t.unix.isStrict = t.isStrict
  | .word _ | .number _ | .text _ | .emptyList _ | .emptyObject _ => rfl
  | .list items => items.isStrict_unix
  | .object members => members.isStrict_unix

theorem Items.isStrict_unix : (items : Items) → items.unix.isStrict = items.isStrict
  | .last _ item _ => item.isStrict_unix
  | .more _ item _ rest => by rw [Items.unix, Items.isStrict, item.isStrict_unix, rest.isStrict_unix, Items.isStrict]

theorem Members.isStrict_unix : (members : Members) → members.unix.isStrict = members.isStrict
  | .last _ _ _ _ item _ => item.isStrict_unix
  | .more _ _ _ _ item _ rest => by
    rw [Members.unix, Members.isStrict, item.isStrict_unix, rest.isStrict_unix, Members.isStrict]

end

/-- Conditions for which it does not matter how lines end. -/
structure Checks.IgnoresLineEnds (c : Checks) : Prop where
  blanks : ∀ bs : Blanks, c.blanks bs.unix = c.blanks bs
  key : ∀ (name : Body) (behind : Blanks), c.key name behind.unix = c.key name behind

mutual

theorem Node.all_unix {c : Checks} (h : c.IgnoresLineEnds) : (t : Node) → t.unix.all c = t.all c
  | .word _ | .number _ | .text _ => rfl
  | .emptyList inside | .emptyObject inside => h.blanks inside
  | .list items => items.all_unix h
  | .object members => members.all_unix h

theorem Items.all_unix {c : Checks} (h : c.IgnoresLineEnds) : (items : Items) → items.unix.all c = items.all c
  | .last before item after => by
    rw [Items.unix, Items.all, Items.all, h.blanks, item.all_unix h, h.blanks]
  | .more before item after rest => by
    rw [Items.unix, Items.all, Items.all, h.blanks, item.all_unix h, h.blanks, rest.all_unix h]

theorem Members.all_unix {c : Checks} (h : c.IgnoresLineEnds) :
    (members : Members) → members.unix.all c = members.all c
  | .last before name behind ahead item after => by
    rw [Members.unix, Members.all, Members.all, h.blanks, h.key, h.blanks, h.blanks, item.all_unix h, h.blanks]
  | .more before name behind ahead item after rest => by
    rw [Members.unix, Members.all, Members.all, h.blanks, h.key, h.blanks, h.blanks, item.all_unix h, h.blanks,
      rest.all_unix h]

end

/-! ### Whole texts -/

namespace Source

/-- A text with line feeds between its tokens. -/
def unix (s : Source) : Source := ⟨s.lead.unix, s.node.unix, s.trail.unix⟩

/-- The text of a file with line feeds. -/
theorem chars_unix (s : Source) : s.unix.chars = unixLines s.chars := by
  rw [show unixLines s.chars = _ from unixLines_blanks s.lead (s.node.head?_chars _), s.node.unixLines_append,
    ← Blanks.chars_unix]
  rfl

theorem isObject_unix (s : Source) : s.unix.isObject = s.isObject := by
  obtain ⟨lead, node, trail⟩ := s
  cases node <;> rfl

theorem reread_unix (s : Source) : s.unix.reread = s.reread := s.node.reread_unix

theorem unpaired_unix (s : Source) : s.unix.node.all .unpaired = s.node.all .unpaired :=
  s.node.all_unix ⟨fun _ => rfl, fun _ _ => rfl⟩

/-- Whether a text is YAML does not depend on how its lines end. -/
theorem readable_unix (s : Source) : s.unix.readable = s.readable := by
  have hscanned : s.unix.node.all .scanned = s.node.all .scanned :=
    s.node.all_unix ⟨Blanks.untabbed_unix, fun _ _ => rfl⟩
  have hkeyed : s.unix.node.all .keyed = s.node.all .keyed := s.node.all_unix ⟨fun _ => rfl, isNear_unix⟩
  have hsized : s.unix.node.all .sized = s.node.all .sized := s.node.all_unix ⟨fun _ => rfl, fun _ _ => rfl⟩
  have hblanks : s.unix.lead.untabbed = s.lead.untabbed ∧ s.unix.trail.untabbed = s.trail.untabbed :=
    ⟨s.lead.untabbed_unix, s.trail.untabbed_unix⟩
  rw [readable, readable, chars_unix, all_unixLines rfl, hblanks.1, hblanks.2, hscanned, hkeyed, hsized]

end Source

end RouteDoc.Json
