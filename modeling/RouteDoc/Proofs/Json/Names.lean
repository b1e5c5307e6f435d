import RouteDoc.Proofs.Json.Printing

/-!
# Names in objects

Whether some object of a JSON text bears a name twice.  A text is that of one tree only, as far as names go, so the
question is one about the text; and for the text of a value it is the question whether two keys of one mapping are
written as the same name, although they are different keys.

* `Json.Node.namesApart` — no object of a value bears a name twice;
* `Json.Node.namesApart_unique` — it depends on the text alone;
* `Value.namesApart` — no two keys of one mapping become one name;
* `Json.namesApart_iff_of_render` — the objects of the text of a value.
-/

namespace RouteDoc

namespace Json

/-- The names of members, in order. -/
def Members.names : Members → List String
  | .last _ name _ _ _ _ => [name.text]
  | .more _ name _ _ _ _ rest => name.text :: rest.names

mutual

/-- No object in a value bears a name twice. -/
def Node.namesApart : Node → Bool
  | .word _ | .number _ | .text _ | .emptyList _ | .emptyObject _ => true
  | .list items => items.namesApart
  | .object members => decide members.names.Nodup && members.namesApart

/-- No object in items bears a name twice. -/
def Items.namesApart : Items → Bool
  | .last _ item _ => item.namesApart
  | .more _ item _ rest => item.namesApart && rest.namesApart

/-- No object in the values of members bears a name twice. -/
def Members.namesApart : Members → Bool
  | .last _ _ _ _ item _ => item.namesApart
  | .more _ _ _ _ item _ rest => item.namesApart && rest.namesApart

end

/-- No object of a text bears a name twice. -/
def Source.namesApart (s : Source) : Bool := s.node.namesApart

/-! ### One text, one tree -/

/-- Blanks are taken off a text in one way. -/
theorem blanks_unique {bs bs' : Blanks} {c d : Char} {cs ds : List Char} (hc : isBlank c = false)
    (hd : isBlank d = false) (h : bs.chars ++ c :: cs = bs'.chars ++ d :: ds) : c = d ∧ cs = ds := by
  have hskip := skipBlank_blanks_cons bs cs hc
  rw [h, skipBlank_blanks_cons bs' ds hd] at hskip
  exact ⟨(List.cons.inj hskip).1.symm, (List.cons.inj hskip).2.symm⟩

/-- A character that ends a value in front of it. -/
def isEnding (c : Char) : Bool := isBlank c || c == ',' || c == ']' || c == '\x7d'

theorem Ends.isEnding {cs : List Char} (h : Ends cs) {c : Char} (hc : cs.head? = some c) : isEnding c = true := by
  rcases h c hc with hb | rfl | rfl | rfl
  · simp [Json.isEnding, hb]
  · decide
  · decide
  · decide

/-- What stands in front of an ending is cut off in one way. -/
theorem append_unique {as bs cs ds : List Char} (has : ∀ c ∈ as, isEnding c = false)
    (hbs : ∀ c ∈ bs, isEnding c = false) (hcs : Ends cs) (hds : Ends ds) (h : as ++ cs = bs ++ ds) : cs = ds := by
  have hdrop : ∀ xs rest : List Char, (∀ c ∈ xs, isEnding c = false) → Ends rest →
      (xs ++ rest).dropWhile (fun c => !isEnding c) = rest := by
    intro xs rest hxs hrest
    rw [List.dropWhile_append_of_pos (by simpa using hxs)]
    cases rest with
    | nil => rfl
    | cons c rest =>
      have hc : isEnding c = true := hrest.isEnding rfl
      rw [List.dropWhile_cons, hc]
      rfl
  rw [← hdrop as cs has hcs, h, hdrop bs ds hbs hds]

theorem isEnding_of_isDigit {c : Char} (h : c.isDigit = true) : isEnding c = false := by
  have hne : ∀ d : Char, d.isDigit = false → c ≠ d := by
    rintro d hd rfl
    rw [h] at hd
    cases hd
  simp [isEnding, isBlank, hne]

/-- No character of a number ends a value. -/
theorem Number.not_ending (n : Number) : ∀ c ∈ n.chars, isEnding c = false := by
  intro c hc
  rcases n.char_cases hc with hc | hc
  · exact isEnding_of_isDigit hc
  · simp only [List.mem_cons, List.not_mem_nil, or_false] at hc
    rcases hc with rfl | rfl | rfl | rfl | rfl <;> rfl

theorem Word.not_ending (w : Word) : ∀ c ∈ w.chars, isEnding c = false := by
  have hall : w.chars.all (fun c => !isEnding c) = true := by
    cases w with
    | null => rfl
    | truth b => cases b <;> rfl
    | nan => rfl
    | infinity n => cases n <;> rfl
  simpa using hall

/-- The four shapes of values that a first character tells apart. -/
inductive Shape where
  | leaf | text | list | object
  deriving DecidableEq

/-- The shape of what begins with a character. -/
def shapeOf (c : Char) : Shape :=
  if c = '"' then .text else if c = '[' then .list else if c = '\x7b' then .object else .leaf

/-- The shape of a value. -/
def Node.shape : Node → Shape
  | .word _ | .number _ => .leaf
  | .text _ => .text
  | .emptyList _ | .list _ => .list
  | .emptyObject _ | .object _ => .object

theorem shapeOf_of_isDigit {c : Char} (h : c.isDigit = true) : shapeOf c = .leaf := by
  have hne : ∀ d : Char, d.isDigit = false → c ≠ d := by
    rintro d hd rfl
    rw [h] at hd
    cases hd
  simp [shapeOf, hne]

theorem Node.exists_cons_shape (t : Node) : ∃ c cs, t.chars = c :: cs ∧ shapeOf c = t.shape := by
  cases t with
  | word w =>
    cases w with
    | null => exact ⟨_, _, rfl, rfl⟩
    | truth b => cases b <;> exact ⟨_, _, rfl, rfl⟩
    | nan => exact ⟨_, _, rfl, rfl⟩
    | infinity n => cases n <;> exact ⟨_, _, rfl, rfl⟩
  | number n =>
    obtain ⟨c, cs, hcs, hc⟩ := n.whole.exists_cons
    cases hn : n.negative with
    | true => exact ⟨'-', n.whole.chars ++ n.tail, by simp [Node.chars, Number.chars, hn], rfl⟩
    | false => exact ⟨c, cs ++ n.tail, by simp [Node.chars, Number.chars, hn, hcs], shapeOf_of_isDigit hc⟩
  | text b => exact ⟨_, _, rfl, rfl⟩
  | emptyList inside => exact ⟨_, _, rfl, rfl⟩
  | list items => exact ⟨_, _, rfl, rfl⟩
  | emptyObject inside => exact ⟨_, _, rfl, rfl⟩
  | object members => exact ⟨_, _, rfl, rfl⟩

/-- Values with one text in front have one shape. -/
theorem Node.shape_unique {t u : Node} {r s : List Char} (h : t.chars ++ r = u.chars ++ s) : t.shape = u.shape := by
  obtain ⟨c, cs, hcs, hc⟩ := t.exists_cons_shape
  obtain ⟨d, ds, hds, hd⟩ := u.exists_cons_shape
  rw [hcs, hds, List.cons_append, List.cons_append] at h
  rw [← hc, ← hd, (List.cons.inj h).1]

/-- A leaf is cut off in one way, and has no names. -/
theorem Node.leaf_unique {t u : Node} {r s : List Char} (ht : t.shape = .leaf) (hu : u.shape = .leaf) (hr : Ends r)
    (hs : Ends s) (h : t.chars ++ r = u.chars ++ s) : t.namesApart = u.namesApart ∧ r = s := by
  have hleaf : ∀ v : Node, v.shape = .leaf → v.namesApart = true ∧ ∀ c ∈ v.chars, isEnding c = false := by
    intro v hv
    cases v with
    | word w => exact ⟨rfl, w.not_ending⟩
    | number n => exact ⟨rfl, n.not_ending⟩
    | _ => cases hv
  rw [(hleaf t ht).1, (hleaf u hu).1]
  exact ⟨rfl, append_unique (hleaf t ht).2 (hleaf u hu).2 hr hs h⟩

/-- A text in quotes is cut off in one way. -/
theorem body_unique {a b : Body} {r s : List Char} (h : a.chars ++ '"' :: r = b.chars ++ '"' :: s) :
    a.text = b.text ∧ r = s := by
  have hread := readText_body a r
  rw [h, readText_body b s, Option.some.injEq, Prod.mk.injEq] at hread
  exact ⟨by rw [Body.text, Body.text, hread.1], hread.2.symm⟩

/-- A name with its colon is cut off in one way. -/
theorem name_unique {before before' behind behind' ahead ahead' : Blanks} {name name' : Body} {t u : Node}
    {r s : List Char} (h : nameChars before name behind ahead ++ (t.chars ++ r)
      = nameChars before' name' behind' ahead' ++ (u.chars ++ s)) :
    name.text = name'.text ∧ t.chars ++ r = u.chars ++ s := by
  simp only [nameChars, List.append_assoc, List.cons_append] at h
  obtain ⟨-, hname⟩ := blanks_unique (by decide) (by decide) h
  obtain ⟨htext, hcolon⟩ := body_unique hname
  obtain ⟨-, hvalue⟩ := blanks_unique (by decide) (by decide) hcolon
  have hskip := skipBlank_node ahead t r
  rw [hvalue, skipBlank_node ahead' u s] at hskip
  exact ⟨htext, hskip.symm⟩

/-- Items do not begin with the bracket that closes a list. -/
theorem items_ne_bracket (items : Items) (inside : Blanks) (r s : List Char) :
    items.chars ++ r ≠ inside.chars ++ ']' :: s := by
  intro h
  obtain ⟨c, cs, hskip, hc⟩ := skipBlank_items items r
  rw [h, skipBlank_blanks_cons inside s (by decide)] at hskip
  exact (isOpening_ne hc).2.1 (List.cons.inj hskip).1.symm

/-- Members do not begin with the brace that closes an object. -/
theorem members_ne_brace (members : Members) (inside : Blanks) (r s : List Char) :
    members.chars ++ r ≠ inside.chars ++ '\x7d' :: s := by
  intro h
  obtain ⟨cs, hskip⟩ := skipBlank_members members r
  rw [h, skipBlank_blanks_cons inside s (by decide)] at hskip
  exact absurd (List.cons.inj hskip).1 (by decide)

/-- An item is followed by a comma or by what closes the list, and the text tells which. -/
theorem comma_ne_close {bs bs' : Blanks} {c : Char} {cs ds : List Char} (hc : c = ']' ∨ c = '\x7d') :
    bs.chars ++ ',' :: cs ≠ bs'.chars ++ c :: ds := by
  intro h
  rcases hc with rfl | rfl
  · exact absurd (blanks_unique (by decide) (by decide) h).1 (by decide)
  · exact absurd (blanks_unique (by decide) (by decide) h).1 (by decide)

mutual

/-- **Whether names are borne twice depends on the text alone**, and so does where a value ends. -/
theorem Node.namesApart_unique : (t u : Node) → (r s : List Char) → Ends r → Ends s →
    t.chars ++ r = u.chars ++ s → t.namesApart = u.namesApart ∧ r = s
  | .word w, u, r, s, hr, hs, h => Node.leaf_unique rfl (Node.shape_unique h).symm hr hs h
  | .number n, u, r, s, hr, hs, h => Node.leaf_unique rfl (Node.shape_unique h).symm hr hs h
  | .text a, u, r, s, _, _, h => by
    have hshape : Shape.text = u.shape := Node.shape_unique h
    cases u with
    | text b =>
      simp only [Node.chars, List.cons_append, List.append_assoc, List.nil_append, List.cons.injEq,
        true_and] at h
      exact ⟨rfl, (body_unique h).2⟩
    | _ => cases hshape
  | .emptyList inside, u, r, s, _, _, h => by
    have hshape : Shape.list = u.shape := Node.shape_unique h
    cases u with
    | emptyList inside' =>
      simp only [Node.chars, List.cons_append, List.append_assoc, List.nil_append, List.cons.injEq, true_and] at h
      exact ⟨rfl, (blanks_unique (by decide) (by decide) h).2⟩
    | list items =>
      simp only [Node.chars, List.cons_append, List.append_assoc, List.nil_append, List.cons.injEq, true_and] at h
      exact absurd h.symm (items_ne_bracket items inside _ r)
    | _ => cases hshape
  | .list items, u, r, s, _, _, h => by
    have hshape : Shape.list = u.shape := Node.shape_unique h
    cases u with
    | emptyList inside =>
      simp only [Node.chars, List.cons_append, List.append_assoc, List.nil_append, List.cons.injEq, true_and] at h
      exact absurd h (items_ne_bracket items inside _ s)
    | list items' =>
      simp only [Node.chars, List.cons_append, List.append_assoc, List.nil_append, List.cons.injEq, true_and] at h
      exact Items.namesApart_unique items items' r s h
    | _ => cases hshape
  | .emptyObject inside, u, r, s, _, _, h => by
    have hshape : Shape.object = u.shape := Node.shape_unique h
    cases u with
    | emptyObject inside' =>
      simp only [Node.chars, List.cons_append, List.append_assoc, List.nil_append, List.cons.injEq, true_and] at h
      exact ⟨rfl, (blanks_unique (by decide) (by decide) h).2⟩
    | object members =>
      simp only [Node.chars, List.cons_append, List.append_assoc, List.nil_append, List.cons.injEq, true_and] at h
      exact absurd h.symm (members_ne_brace members inside _ r)
    | _ => cases hshape
  | .object members, u, r, s, _, _, h => by
    have hshape : Shape.object = u.shape := Node.shape_unique h
    cases u with
    | emptyObject inside =>
      simp only [Node.chars, List.cons_append, List.append_assoc, List.nil_append, List.cons.injEq, true_and] at h
      exact absurd h (members_ne_brace members inside _ s)
    | object members' =>
      simp only [Node.chars, List.cons_append, List.append_assoc, List.nil_append, List.cons.injEq, true_and] at h
      obtain ⟨hnames, hapart, hrest⟩ := Members.namesApart_unique members members' r s h
      exact ⟨by rw [Node.namesApart, Node.namesApart, hnames, hapart], hrest⟩
    | _ => cases hshape

theorem Items.namesApart_unique : (items others : Items) → (r s : List Char) →
    items.chars ++ ']' :: r = others.chars ++ ']' :: s → items.namesApart = others.namesApart ∧ r = s
  | .last before t after, .last before' u after', r, s, h => by
    simp only [Items.chars, List.append_assoc] at h
    have hitem := congrArg skipBlank h
    rw [skipBlank_node, skipBlank_node] at hitem
    obtain ⟨hapart, hrest⟩ := Node.namesApart_unique t u _ _ (ends_blanks after (ends_bracket r))
      (ends_blanks after' (ends_bracket s)) hitem
    exact ⟨hapart, (blanks_unique (by decide) (by decide) hrest).2⟩
  | .last before t after, .more before' u after' rest', r, s, h => by
    simp only [Items.chars, List.append_assoc, List.cons_append] at h
    have hitem := congrArg skipBlank h
    rw [skipBlank_node, skipBlank_node] at hitem
    obtain ⟨-, hrest⟩ := Node.namesApart_unique t u _ _ (ends_blanks after (ends_bracket r))
      (ends_blanks after' (ends_comma _)) hitem
    exact absurd hrest.symm (comma_ne_close (.inl rfl))
  | .more before t after rest, .last before' u after', r, s, h => by
    simp only [Items.chars, List.append_assoc, List.cons_append] at h
    have hitem := congrArg skipBlank h
    rw [skipBlank_node, skipBlank_node] at hitem
    obtain ⟨-, hrest⟩ := Node.namesApart_unique t u _ _ (ends_blanks after (ends_comma _))
      (ends_blanks after' (ends_bracket s)) hitem
    exact absurd hrest (comma_ne_close (.inl rfl))
  | .more before t after rest, .more before' u after' rest', r, s, h => by
    simp only [Items.chars, List.append_assoc, List.cons_append] at h
    have hitem := congrArg skipBlank h
    rw [skipBlank_node, skipBlank_node] at hitem
    obtain ⟨hapart, hafter⟩ := Node.namesApart_unique t u _ _ (ends_blanks after (ends_comma _))
      (ends_blanks after' (ends_comma _)) hitem
    obtain ⟨hothers, hrest⟩ :=
      Items.namesApart_unique rest rest' r s (blanks_unique (by decide) (by decide) hafter).2
    exact ⟨by rw [Items.namesApart, Items.namesApart, hapart, hothers], hrest⟩

theorem Members.namesApart_unique : (members others : Members) → (r s : List Char) →
    members.chars ++ '\x7d' :: r = others.chars ++ '\x7d' :: s →
    members.names = others.names ∧ members.namesApart = others.namesApart ∧ r = s
  | .last before name behind ahead t after, .last before' name' behind' ahead' u after', r, s, h => by
    simp only [Members.chars, List.append_assoc] at h
    obtain ⟨hname, hitem⟩ := name_unique h
    obtain ⟨hapart, hrest⟩ := Node.namesApart_unique t u _ _ (ends_blanks after (ends_brace r))
      (ends_blanks after' (ends_brace s)) hitem
    exact ⟨by rw [Members.names, Members.names, hname], hapart, (blanks_unique (by decide) (by decide) hrest).2⟩
  | .last before name behind ahead t after, .more before' name' behind' ahead' u after' rest', r, s, h => by
    simp only [Members.chars, List.append_assoc, List.cons_append] at h
    obtain ⟨-, hitem⟩ := name_unique h
    obtain ⟨-, hrest⟩ := Node.namesApart_unique t u _ _ (ends_blanks after (ends_brace r))
      (ends_blanks after' (ends_comma _)) hitem
    exact absurd hrest.symm (comma_ne_close (.inr rfl))
  | .more before name behind ahead t after rest, .last before' name' behind' ahead' u after', r, s, h => by
    simp only [Members.chars, List.append_assoc, List.cons_append] at h
    obtain ⟨-, hitem⟩ := name_unique h
    obtain ⟨-, hrest⟩ := Node.namesApart_unique t u _ _ (ends_blanks after (ends_comma _))
      (ends_blanks after' (ends_brace s)) hitem
    exact absurd hrest (comma_ne_close (.inr rfl))
  | .more before name behind ahead t after rest, .more before' name' behind' ahead' u after' rest', r, s, h => by
    simp only [Members.chars, List.append_assoc, List.cons_append] at h
    obtain ⟨hname, hitem⟩ := name_unique h
    obtain ⟨hapart, hafter⟩ := Node.namesApart_unique t u _ _ (ends_blanks after (ends_comma _))
      (ends_blanks after' (ends_comma _)) hitem
    obtain ⟨hnames, hothers, hrest⟩ :=
      Members.namesApart_unique rest rest' r s (blanks_unique (by decide) (by decide) hafter).2
    exact ⟨by rw [Members.names, Members.names, hname, hnames],
      by rw [Members.namesApart, Members.namesApart, hapart, hothers], hrest⟩

end

theorem Source.namesApart_unique {s s' : Source} (h : s.chars = s'.chars) : s.namesApart = s'.namesApart := by
  have hnode := congrArg skipBlank h
  rw [Source.chars, Source.chars, skipBlank_node, skipBlank_node] at hnode
  have hends : ∀ bs : Blanks, Ends bs.chars := fun bs => by simpa using ends_blanks bs ends_nil
  exact (Node.namesApart_unique s.node s'.node _ _ (hends _) (hends _) hnode).1

end Json

/-! ### Values -/

namespace Value

mutual

/-- No two keys of one mapping in a value become one name. -/
def namesApart : Value → Bool
  | scalar _ | set _ | enclosing _ => true
  | list vs => allApart vs
  | map es => decide (es.map fun e => e.1.printed?).Nodup && membersApart es

/-- No two keys of one mapping in some values become one name. -/
def allApart : List Value → Bool
  | [] => true
  | v :: vs => namesApart v && allApart vs

/-- No two keys of one mapping below some entries become one name. -/
def membersApart : List (Key × Value) → Bool
  | [] => true
  | (_, v) :: es => namesApart v && membersApart es

end

theorem allApart_of_forall {vs : List Value} (h : ∀ v ∈ vs, v.namesApart = true) : allApart vs = true := by
  induction vs with
  | nil => rfl
  | cons v vs ih =>
    rw [allApart, h v List.mem_cons_self, ih fun w hw => h w (List.mem_cons_of_mem _ hw), Bool.and_self]

theorem membersApart_of_forall {es : List (Key × Value)} (h : ∀ e ∈ es, e.2.namesApart = true) :
    membersApart es = true := by
  induction es with
  | nil => rfl
  | cons e es ih =>
    obtain ⟨k, v⟩ := e
    rw [membersApart, h (k, v) List.mem_cons_self, ih fun f hf => h f (List.mem_cons_of_mem _ hf), Bool.and_self]

/-- Keys that are texts are written as themselves, so no two of them become one name. -/
theorem TextKeyed.namesApart {p : Scalar → Prop} {v : Value} (h : v.TextKeyed p) : v.namesApart = true := by
  induction h with
  | scalar _ => rfl
  | list _ ih =>
    rw [Value.namesApart]
    exact allApart_of_forall ih
  | @map es hdistinct hkeys _ ih =>
    have hnodup : (es.map fun e => e.1.printed?).Nodup := by
      rw [List.Nodup, List.pairwise_map]
      refine hdistinct.pairwise.imp_of_mem fun {e f} he hf hne heq => ?_
      obtain ⟨name, hname⟩ := hkeys e he
      obtain ⟨name', hname'⟩ := hkeys f hf
      have hsame : name = name' := by
        rw [hname, hname'] at heq
        exact Option.some.inj heq
      rw [hname, hname', hsame] at hne
      simp at hne
    rw [Value.namesApart, Bool.and_eq_true, decide_eq_true_iff]
    exact ⟨hnodup, membersApart_of_forall ih⟩

end Value

namespace Json

theorem PrintsMembers.names_eq {level : ℕ} {es : Entries} {members : Members} :
    PrintsMembers level es members → (es.map fun e => e.1.printed?) = members.names.map some
  | .last hname hb _ => by simp [Members.names, hname, hb.text_eq]
  | .more hname hb _ hmembers => by simp [Members.names, hname, hb.text_eq, hmembers.names_eq]

mutual

/-- The tree that is written for a value bears names twice where two keys become one name. -/
theorem Prints.namesApart_eq {level : ℕ} {v : Value} {t : Node} : Prints level v t → t.namesApart = v.namesApart
  | .scalar hs => by
    cases hs <;> rfl
  | .emptyList => rfl
  | .list hitems => by rw [Node.namesApart, Value.namesApart, hitems.namesApart_eq]
  | .emptyMap => rfl
  | .map hmembers => by
    have hinjective : Function.Injective (some : String → Option String) := Option.some_injective String
    simp only [Node.namesApart, Value.namesApart, hmembers.names_eq, List.nodup_map_iff hinjective,
      hmembers.namesApart_eq]

theorem PrintsItems.namesApart_eq {level : ℕ} {vs : List Value} {items : Items} :
    PrintsItems level vs items → items.namesApart = Value.allApart vs
  | .last ht => by rw [Items.namesApart, Value.allApart, Value.allApart, Bool.and_true, ht.namesApart_eq]
  | .more ht hitems => by rw [Items.namesApart, Value.allApart, ht.namesApart_eq, hitems.namesApart_eq]

theorem PrintsMembers.namesApart_eq {level : ℕ} {es : Entries} {members : Members} :
    PrintsMembers level es members → members.namesApart = Value.membersApart es
  | .last _ _ ht => by rw [Members.namesApart, Value.membersApart, Value.membersApart, Bool.and_true, ht.namesApart_eq]
  | .more _ _ ht hmembers => by
    rw [Members.namesApart, Value.membersApart, ht.namesApart_eq, hmembers.namesApart_eq]

end

/-- **The objects of the text of a value**: none bears a name twice exactly when no two keys of one mapping in the
value become one name. -/
theorem namesApart_iff_of_render {v : Value} {text : String} (h : render v = .ok text) :
    (∃ s : Source, text.toList = s.chars) ∧
      ∀ s : Source, text.toList = s.chars → (s.namesApart = true ↔ v.namesApart = true) := by
  obtain ⟨t, ht, htext⟩ := render_eq_ok h
  refine ⟨⟨sourceOf t, htext⟩, fun s hs => ?_⟩
  have heq : s.namesApart = (sourceOf t).namesApart := Source.namesApart_unique (hs.symm.trans htext)
  rw [heq, show (sourceOf t).namesApart = t.namesApart from rfl, ht.namesApart_eq]

end Json

end RouteDoc
