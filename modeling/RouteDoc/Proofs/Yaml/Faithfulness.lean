import RouteDoc.Proofs.Json.Names
import RouteDoc.Proofs.Yaml.Rereading

/-!
# What is read as it is meant

When a JSON text that is read as YAML keeps its value.  That is a matter of the leaves: texts have to survive the
folding of their line ends, and numbers have to look like numbers.  Names that become equal in reading are lost,
so nothing else helps where all names were different.

* `Node.reread_eq` — leaves that are read as what they denote suffice;
* `Node.reread_eq_iff` — and they are needed, when no object bears a name twice;
* `Checks.and`, `Node.all_and` — conditions on leaves together;
* `Source.survives_eq` — all conditions on a text in one.
-/

namespace RouteDoc

/-! ### Entries stored one after another -/

namespace Entries

variable {es : Entries} {key : Key} {value : Value}

/-- A value is stored in the place of another one, or at the end. -/
theorem set_cases (es : Entries) (key : Key) (value : Value) :
    (es.set key value).length = es.length ∨ es.set key value = es ++ [(key, value)] := by
  induction es with
  | nil => exact .inr rfl
  | cons e es ih =>
    obtain ⟨k, v⟩ := e
    rw [set]
    split
    · exact .inl rfl
    · rcases ih with h | h
      · exact .inl (by rw [List.length_cons, List.length_cons, h])
      · exact .inr (by rw [h]; rfl)

theorem length_foldl_set_le (pairs base : Entries) :
    (pairs.foldl (fun es e => Entries.set e.1 e.2 es) base).length ≤ base.length + pairs.length := by
  induction pairs generalizing base with
  | nil => exact Nat.le_refl _
  | cons e pairs ih =>
    have hrest := ih (base.set e.1 e.2)
    have hset : (base.set e.1 e.2).length ≤ base.length + 1 := by
      rcases base.set_cases e.1 e.2 with h | h
      · omega
      · rw [h, List.length_append, List.length_singleton]
    rw [List.foldl_cons, List.length_cons]
    omega

/-- Pairs of which none takes the place of another are the entries. -/
theorem foldl_set_of_length (pairs base : Entries)
    (h : (pairs.foldl (fun es e => Entries.set e.1 e.2 es) base).length = base.length + pairs.length) :
    pairs.foldl (fun es e => Entries.set e.1 e.2 es) base = base ++ pairs := by
  induction pairs generalizing base with
  | nil => exact (List.append_nil base).symm
  | cons e pairs ih =>
    have hrest := length_foldl_set_le pairs (base.set e.1 e.2)
    rw [List.foldl_cons, List.length_cons] at h
    rcases base.set_cases e.1 e.2 with heq | heq
    · omega
    · have hlength : (base.set e.1 e.2).length = base.length + 1 := by
        rw [heq, List.length_append, List.length_singleton]
      rw [List.foldl_cons, ih (base.set e.1 e.2) (by omega), heq, List.append_assoc]
      rfl

theorem ofPairs_of_length (h : (ofPairs es).length = es.length) : ofPairs es = es :=
  foldl_set_of_length es [] (by rw [List.length_nil, Nat.zero_add]; exact h)

end Entries

namespace Json

open Yaml

/-! ### Leaves -/

theorem Number.reread_eq_iff (n : Number) : n.reread = n.value ↔ (n.isInteger || n.hasFloatLook) = true := by
  rw [reread, value]
  cases n.isInteger with
  | true => simp
  | false => cases n.hasFloatLook <;> simp

theorem Body.reread_eq_iff (b : Body) : b.reread = b.text ↔ (b.refold? == some (b.map Piece.char)) = true := by
  rw [beq_iff_eq, reread, text]
  cases h : b.refold? with
  | some cs => simp [String.ofList_inj]
  | none =>
    have hne : b ≠ [] := by
      rintro rfl
      cases h
    simp [hne]

theorem faithful_text (b : Body) : Checks.faithful.text b = true ↔ b.reread = b.text := (Body.reread_eq_iff b).symm

theorem faithful_number (n : Number) : Checks.faithful.number n = true ↔ n.reread = n.value :=
  (Number.reread_eq_iff n).symm

/-! ### Values -/

theorem Items.length_reread : (items : Items) → items.reread.length = items.values.length
  | .more _ _ _ rest => congrArg Nat.succ rest.length_reread
  | .last _ _ _ => rfl

theorem Members.length_reread : (members : Members) → members.reread.length = members.pairs.length
  | .more _ _ _ _ _ _ rest => congrArg Nat.succ rest.length_reread
  | .last _ _ _ _ _ _ => rfl

/-- The pairs of members are texts with values. -/
theorem Members.exists_named : (members : Members) → ∃ named : List (String × Value),
    members.pairs = (named.map fun (k, v) => (Key.str k, v)) ∧ named.map (·.1) = members.names
  | .more _ name _ _ item _ rest => by
    obtain ⟨named, hpairs, hnames⟩ := rest.exists_named
    exact ⟨(name.text, item.value) :: named, by rw [Members.pairs, hpairs]; rfl,
      by rw [Members.names, ← hnames]; rfl⟩
  | .last _ name _ _ item _ => ⟨[(name.text, item.value)], rfl, rfl⟩

theorem Members.distinct_pairs {members : Members} (h : members.names.Nodup) : Entries.Distinct members.pairs := by
  obtain ⟨named, hpairs, hnames⟩ := members.exists_named
  rw [hpairs]
  exact Entries.distinct_object (hnames ▸ h)

mutual

/-- **Leaves that are read as what they denote make a value that is read as what it denotes.** -/
theorem Node.reread_eq : (t : Node) → t.all .faithful = true → t.reread = t.value
  | .word _, _ => rfl
  | .number n, h => congrArg Value.scalar ((faithful_number n).1 h)
  | .text b, h => congrArg Value.str ((faithful_text b).1 h)
  | .emptyList _, _ | .emptyObject _, _ => rfl
  | .list items, h => congrArg Value.list (items.reread_eq h)
  | .object members, h => congrArg (fun pairs => Value.map (Entries.ofPairs pairs)) (members.reread_eq h)

theorem Items.reread_eq : (items : Items) → items.all .faithful = true → items.reread = items.values
  | .last _ item _, h => by
    have hitem : item.all .faithful = true := by simpa [Items.all, Checks.faithful] using h
    rw [Items.reread, item.reread_eq hitem, Items.values]
  | .more _ item _ rest, h => by
    have hboth : item.all .faithful = true ∧ rest.all .faithful = true := by
      simpa [Items.all, Checks.faithful] using h
    rw [Items.reread, item.reread_eq hboth.1, rest.reread_eq hboth.2, Items.values]

theorem Members.reread_eq : (members : Members) → members.all .faithful = true → members.reread = members.pairs
  | .last _ name _ _ item _, h => by
    have hboth : Checks.faithful.text name = true ∧ item.all .faithful = true := by
      simpa [Members.all, Checks.faithful] using h
    rw [Members.reread, (faithful_text name).1 hboth.1, item.reread_eq hboth.2, Members.pairs]
  | .more _ name _ _ item _ rest, h => by
    have hall : Checks.faithful.text name = true ∧ item.all .faithful = true ∧ rest.all .faithful = true := by
      simpa [Members.all, Checks.faithful] using h
    rw [Members.reread, (faithful_text name).1 hall.1, item.reread_eq hall.2.1, rest.reread_eq hall.2.2,
      Members.pairs]

end

mutual

/-- A value that is read as what it denotes has such leaves, when no object bears a name twice. -/
theorem Node.faithful_of_reread : (t : Node) → t.namesApart = true → t.reread = t.value → t.all .faithful = true
  | .word _, _, _ => rfl
  | .number n, _, h => (faithful_number n).2 (Value.scalar.inj h)
  | .text b, _, h => (faithful_text b).2 (Scalar.str.inj (Value.scalar.inj h))
  | .emptyList _, _, _ | .emptyObject _, _, _ => rfl
  | .list items, hapart, h => items.faithful_of_reread hapart (Value.list.inj h)
  | .object members, hapart, h => by
    rw [Node.namesApart, Bool.and_eq_true, decide_eq_true_iff] at hapart
    have hpairs : Entries.ofPairs members.reread = members.pairs := by
      rw [← Entries.ofPairs_of_distinct (Members.distinct_pairs hapart.1)]
      exact Value.map.inj h
    have hall : Entries.ofPairs members.reread = members.reread :=
      Entries.ofPairs_of_length (by rw [hpairs, members.length_reread])
    exact members.faithful_of_reread hapart.2 (hall.symm.trans hpairs)

theorem Items.faithful_of_reread : (items : Items) → items.namesApart = true → items.reread = items.values →
    items.all .faithful = true
  | .last before item after, hapart, h => by
    have hitem := item.faithful_of_reread hapart (List.cons.inj h).1
    simpa [Items.all, Checks.faithful] using hitem
  | .more before item after rest, hapart, h => by
    rw [Items.namesApart, Bool.and_eq_true] at hapart
    have hitem := item.faithful_of_reread hapart.1 (List.cons.inj h).1
    have hrest := rest.faithful_of_reread hapart.2 (List.cons.inj h).2
    simpa [Items.all, Checks.faithful] using And.intro hitem hrest

theorem Members.faithful_of_reread : (members : Members) → members.namesApart = true →
    members.reread = members.pairs → members.all .faithful = true
  | .last before name behind ahead item after, hapart, h => by
    obtain ⟨hname, hvalue⟩ := Prod.mk.inj (List.cons.inj h).1
    have htext := (faithful_text name).2 (by simpa using hname)
    have hitem := item.faithful_of_reread hapart hvalue
    simpa [Members.all, Checks.faithful] using And.intro htext hitem
  | .more before name behind ahead item after rest, hapart, h => by
    rw [Members.namesApart, Bool.and_eq_true] at hapart
    obtain ⟨hname, hvalue⟩ := Prod.mk.inj (List.cons.inj h).1
    have htext := (faithful_text name).2 (by simpa using hname)
    have hitem := item.faithful_of_reread hapart.1 hvalue
    have hrest := rest.faithful_of_reread hapart.2 (List.cons.inj h).2
    simpa [Members.all, Checks.faithful] using And.intro htext (And.intro hitem hrest)

end

/-- **When a value is read as what it denotes**: no object bears a name twice. -/
theorem Node.reread_eq_iff {t : Node} (h : t.namesApart = true) : t.reread = t.value ↔ t.all .faithful = true :=
  ⟨t.faithful_of_reread h, t.reread_eq⟩

/-! ### Conditions together -/

/-- Two conditions together. -/
def Checks.and (c c' : Checks) : Checks where
  blanks bs := c.blanks bs && c'.blanks bs
  text b := c.text b && c'.text b
  key name behind := c.key name behind && c'.key name behind
  number n := c.number n && c'.number n

mutual

theorem Node.all_and (c c' : Checks) : (t : Node) → t.all (c.and c') = (t.all c && t.all c')
  | .word _ | .number _ | .text _ | .emptyList _ | .emptyObject _ => rfl
  | .list items => items.all_and c c'
  | .object members => members.all_and c c'

theorem Items.all_and (c c' : Checks) : (items : Items) → items.all (c.and c') = (items.all c && items.all c')
  | .last before item after => by
    rw [Items.all, Items.all, Items.all, item.all_and c c']
    simp only [Checks.and, Bool.and_assoc, Bool.and_left_comm]
  | .more before item after rest => by
    rw [Items.all, Items.all, Items.all, item.all_and c c', rest.all_and c c']
    simp only [Checks.and, Bool.and_assoc, Bool.and_left_comm]

theorem Members.all_and (c c' : Checks) :
    (members : Members) → members.all (c.and c') = (members.all c && members.all c')
  | .last before name behind ahead item after => by
    rw [Members.all, Members.all, Members.all, item.all_and c c']
    simp only [Checks.and, Bool.and_assoc, Bool.and_left_comm]
  | .more before name behind ahead item after rest => by
    rw [Members.all, Members.all, Members.all, item.all_and c c', rest.all_and c c']
    simp only [Checks.and, Bool.and_assoc, Bool.and_left_comm]

end

/-- The characters of texts in quotes are admitted. -/
def Checks.admitted : Checks := { text := fun b => b.chars.all isAdmitted }

theorem Blanks.all_admitted (bs : Blanks) : bs.chars.all isAdmitted = true := by
  rw [List.all_eq_true]
  intro c hc
  obtain ⟨b, -, rfl⟩ := List.mem_map.1 hc
  have hb := b.2
  simp only [isBlank, Bool.or_eq_true, beq_iff_eq] at hb
  rcases hb with ((h | h) | h) | h <;> rw [h] <;> rfl

theorem Number.all_admitted (n : Number) : n.chars.all isAdmitted = true := by
  rw [List.all_eq_true]
  intro c hc
  rcases n.char_cases hc with hdigit | hmark
  · have hbounds := Char.isDigit_iff_toNat.1 hdigit
    have hrange : 48 ≤ c.toNat ∧ c.toNat ≤ 57 := hbounds
    have hprint : (decide (0x20 ≤ c.toNat) && decide (c.toNat ≤ 0x7e)) = true := by
      rw [Bool.and_eq_true, decide_eq_true_iff, decide_eq_true_iff]
      omega
    simp only [isAdmitted, hprint, Bool.or_true, Bool.true_or]
  · simp only [List.mem_cons, List.not_mem_nil, or_false] at hmark
    rcases hmark with rfl | rfl | rfl | rfl | rfl <;> rfl

theorem Word.all_admitted (w : Word) : w.chars.all isAdmitted = true := by
  cases w with
  | null | nan => decide
  | truth b => cases b <;> decide
  | infinity negative => cases negative <;> decide

theorem all_admitted_cons {c : Char} (cs : List Char) (h : isAdmitted c = true) :
    (c :: cs).all isAdmitted = cs.all isAdmitted := by
  rw [List.all_cons, h, Bool.true_and]

theorem all_admitted_blanks (bs : Blanks) (cs : List Char) :
    (bs.chars ++ cs).all isAdmitted = cs.all isAdmitted := by
  rw [List.all_append, bs.all_admitted, Bool.true_and]

theorem all_admitted_name (before : Blanks) (name : Body) (behind ahead : Blanks) (cs : List Char) :
    (nameChars before name behind ahead ++ cs).all isAdmitted
      = (name.chars.all isAdmitted && cs.all isAdmitted) := by
  simp only [nameChars, List.append_assoc, List.cons_append]
  rw [all_admitted_blanks, all_admitted_cons _ rfl, List.all_append, all_admitted_cons _ rfl, all_admitted_blanks,
    all_admitted_cons _ rfl, all_admitted_blanks]

mutual

/-- Only texts in quotes may have characters that are not admitted. -/
theorem Node.all_admitted : (t : Node) → t.chars.all isAdmitted = t.all .admitted
  | .word w => w.all_admitted
  | .number n => n.all_admitted
  | .text b => by
    rw [Node.chars, all_admitted_cons _ rfl, List.all_append, show ['"'].all isAdmitted = true from rfl, Bool.and_true]
    rfl
  | .emptyList inside => by
    rw [Node.chars, all_admitted_cons _ rfl, all_admitted_blanks]
    rfl
  | .list items => by
    rw [Node.chars, all_admitted_cons _ rfl, List.all_append, items.all_admitted,
      show [']'].all isAdmitted = true from rfl, Bool.and_true]
    rfl
  | .emptyObject inside => by
    rw [Node.chars, all_admitted_cons _ rfl, all_admitted_blanks]
    rfl
  | .object members => by
    rw [Node.chars, all_admitted_cons _ rfl, List.all_append, members.all_admitted,
      show ['\x7d'].all isAdmitted = true from rfl, Bool.and_true]
    rfl

theorem Items.all_admitted : (items : Items) → items.chars.all isAdmitted = items.all .admitted
  | .last before item after => by
    rw [Items.chars, all_admitted_blanks, List.all_append, after.all_admitted, item.all_admitted]
    simp [Items.all, Checks.admitted]
  | .more before item after rest => by
    rw [Items.chars, all_admitted_blanks, List.all_append, all_admitted_blanks, all_admitted_cons _ rfl,
      item.all_admitted, rest.all_admitted]
    simp [Items.all, Checks.admitted]

theorem Members.all_admitted : (members : Members) → members.chars.all isAdmitted = members.all .admitted
  | .last before name behind ahead item after => by
    rw [Members.chars, all_admitted_name, List.all_append, after.all_admitted, item.all_admitted]
    simp [Members.all, Checks.admitted]
  | .more before name behind ahead item after rest => by
    rw [Members.chars, all_admitted_name, List.all_append, all_admitted_blanks, all_admitted_cons _ rfl,
      item.all_admitted, rest.all_admitted]
    simp [Members.all, Checks.admitted]

end

/-! ### Whole texts -/

/-- All that a value has to meet to survive being read. -/
def Checks.kept : Checks := .and .admitted (.and .scanned (.and .keyed (.and .sized .faithful)))

namespace Source

/-- Does a text survive being read as YAML? -/
def survives (s : Source) : Bool := s.readable && s.node.all .faithful

theorem survives_eq (s : Source) :
    s.survives = (s.lead.untabbed && s.trail.untabbed && s.node.all .kept) := by
  have hadmitted : s.chars.all isAdmitted = s.node.all .admitted := by
    rw [chars, all_admitted_blanks, List.all_append, s.trail.all_admitted, Bool.and_true, s.node.all_admitted]
  rw [survives, readable, hadmitted, Checks.kept, Node.all_and, Node.all_and, Node.all_and, Node.all_and]
  simp only [Bool.and_assoc, Bool.and_left_comm]

end Source

end Json

end RouteDoc
