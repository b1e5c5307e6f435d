import RouteDoc.Proofs.Yaml.Levels
import RouteDoc.Proofs.Yaml.Scalars

/-!
# The values of JSON graphs

The graph of a JSON text has no merging, no node in two places and texts as keys, so it has a value when its
integers have one, and then the value of every node is what its part of the text is read as.

* `Regular`, `Node.regular` — the nodes of the graph;
* `value_map` — a mapping read entry by entry is the one stored entry by entry;
* `Node.value_meaning` — the value of every node;
* `valueOf_node` — the value of the whole graph.
-/

namespace RouteDoc.Json

open Yaml

/-! ### Nodes in a graph -/

/-- Nodes stand in a graph from a number on. -/
def Holds (g : Graph) (n : Nat) (vs : List Vertex) : Prop := ∀ i v, vs[i]? = some v → g[n + i]? = some v

section Holds

variable {g : Graph} {n : Nat} {v : Vertex} {vs ws : List Vertex}

theorem Holds.head (h : Holds g n (v :: vs)) : g[n]? = some v := h 0 v rfl

theorem Holds.tail (h : Holds g n (v :: vs)) : Holds g (n + 1) vs := by
  intro i w hi
  rw [Nat.add_assoc, Nat.add_comm 1]
  exact h (i + 1) w hi

theorem Holds.left (h : Holds g n (vs ++ ws)) : Holds g n vs := by
  intro i w hi
  have hlt : i < vs.length := (List.getElem?_eq_some_iff.1 hi).1
  exact h i w (by rwa [List.getElem?_append_left hlt])

theorem Holds.right (h : Holds g n (vs ++ ws)) : Holds g (n + vs.length) ws := by
  intro i w hi
  rw [Nat.add_assoc]
  exact h (vs.length + i) w (by rwa [List.getElem?_append_right (Nat.le_add_right ..), Nat.add_sub_cancel_left])

theorem holds_toArray (vs : List Vertex) : Holds vs.toArray 0 vs := by
  intro i v hi
  rwa [Nat.zero_add, List.getElem?_toArray]

theorem vertex_of (h : g[n]? = some v) : g.vertex n = v := by
  rw [Graph.vertex, Array.getD_eq_getD_getElem?, h]
  rfl

theorem lt_size_of (h : g[n]? = some v) : n < g.size := (Array.getElem?_eq_some_iff.1 h).1

end Holds

/-! ### Nodes of trees -/

/-- A node of a tree: a scalar, or a collection, the keys of which are texts. -/
inductive Regular (g : Graph) : Vertex → Prop
  | scalar {tag : Yaml.Tag} (text : String) (h : isComposite tag = false ∧ isRare tag = false) :
    Regular g ⟨tag, .scalar text⟩
  | list (items : List Nat) : Regular g ⟨.seq, .sequence items⟩
  | map {es : List (Nat × Nat)} (h : ∀ e ∈ es, ∃ text, g[e.1]? = some (scalarVertex false text)) :
    Regular g ⟨.map, .mapping es⟩

theorem scalarTag_word {w : Word} (h : w.isStrict = true) :
    isComposite (scalarTag true (String.ofList w.chars) none) = false
      ∧ isRare (scalarTag true (String.ofList w.chars) none) = false := by
  rw [show scalarTag true (String.ofList w.chars) none = _ from ofPlain_word h]
  split <;> exact ⟨rfl, rfl⟩

theorem scalarTag_number (n : Number) :
    isComposite (scalarTag true (String.ofList n.chars) none) = false
      ∧ isRare (scalarTag true (String.ofList n.chars) none) = false := by
  rw [show scalarTag true (String.ofList n.chars) none = _ from ofPlain_number n]
  split
  · exact ⟨rfl, rfl⟩
  · split <;> exact ⟨rfl, rfl⟩

theorem regular_text (g : Graph) (text : String) : Regular g (scalarVertex false text) := .scalar text ⟨rfl, rfl⟩

/-- The names of members stand where their numbers say. -/
theorem Members.holds_names {g : Graph} : (members : Members) → (n : Nat) → Holds g n (members.vertices n) →
    ∀ e ∈ members.roots n, ∃ text, g[e.1]? = some (scalarVertex false text)
  | .last _ name _ _ item _, n, h, e, he => by
    rw [List.mem_singleton.1 he]
    exact ⟨_, h.head⟩
  | .more _ name _ _ item _ rest, n, h, e, he => by
    rcases List.mem_cons.1 he with rfl | he
    · exact ⟨_, h.left.head⟩
    · refine rest.holds_names (n + (item.size + 1)) ?_ e he
      have hrest := h.right
      rwa [List.length_cons, Node.length_vertices] at hrest

mutual

theorem Node.regular {g : Graph} : (t : Node) → (n : Nat) → t.isStrict = true → Holds g n (t.vertices n) →
    ∀ v ∈ t.vertices n, Regular g v
  | .word w, n, hstrict, _ => by
    intro v hv
    rw [List.mem_singleton.1 hv]
    exact .scalar _ (scalarTag_word hstrict)
  | .number m, n, _, _ => by
    intro v hv
    rw [List.mem_singleton.1 hv]
    exact .scalar _ (scalarTag_number m)
  | .text b, n, _, _ => by
    intro v hv
    rw [List.mem_singleton.1 hv]
    exact regular_text g _
  | .emptyList _, n, _, _ => by
    intro v hv
    rw [List.mem_singleton.1 hv]
    exact .list []
  | .list items, n, hstrict, h => by
    intro v hv
    rcases List.mem_cons.1 hv with rfl | hv
    · exact .list _
    · exact items.regular (n + 1) hstrict h.tail v hv
  | .emptyObject _, n, _, _ => by
    intro v hv
    rw [List.mem_singleton.1 hv]
    exact .map (by simp)
  | .object members, n, hstrict, h => by
    intro v hv
    rcases List.mem_cons.1 hv with rfl | hv
    · exact .map (members.holds_names (n + 1) h.tail)
    · exact members.regular (n + 1) hstrict h.tail v hv

theorem Items.regular {g : Graph} : (items : Items) → (n : Nat) → items.isStrict = true →
    Holds g n (items.vertices n) → ∀ v ∈ items.vertices n, Regular g v
  | .last _ item _, n, hstrict, h => item.regular n hstrict h
  | .more _ item _ rest, n, hstrict, h => by
    obtain ⟨hitem, hothers⟩ := (Bool.and_eq_true _ _).mp hstrict
    have hrest := h.right
    rw [Node.length_vertices] at hrest
    intro v hv
    rcases List.mem_append.1 hv with hv | hv
    · exact item.regular n hitem h.left v hv
    · exact rest.regular (n + item.size) hothers hrest v hv

theorem Members.regular {g : Graph} : (members : Members) → (n : Nat) → members.isStrict = true →
    Holds g n (members.vertices n) → ∀ v ∈ members.vertices n, Regular g v
  | .last _ name _ _ item _, n, hstrict, h => by
    intro v hv
    rcases List.mem_cons.1 hv with rfl | hv
    · exact regular_text g _
    · exact item.regular (n + 1) hstrict h.tail v hv
  | .more _ name _ _ item _ rest, n, hstrict, h => by
    obtain ⟨hitem, hothers⟩ := (Bool.and_eq_true _ _).mp hstrict
    have hrest := h.right
    rw [List.length_cons, Node.length_vertices] at hrest
    intro v hv
    rcases List.mem_append.1 hv with hv | hv
    · rcases List.mem_cons.1 hv with rfl | hv
      · exact regular_text g _
      · exact item.regular (n + 1) hitem h.left.tail v hv
    · exact rest.regular (n + (item.size + 1)) hothers hrest v hv

end

/-- A graph all nodes of which are nodes of a tree. -/
def AllRegular (g : Graph) : Prop := ∀ n : Nat, Regular g (g.vertex n)

/-- The node with a number is in the graph, or the empty scalar. -/
theorem vertex_cases (g : Graph) (n : Nat) : g[n]? = some (g.vertex n) ∨ g.vertex n = Graph.blank := by
  cases h : g[n]? with
  | some v => exact .inl (by rw [vertex_of h])
  | none =>
    refine .inr ?_
    rw [Graph.vertex, Array.getD_eq_getD_getElem?, h]
    rfl

theorem mem_or_blank (vs : List Vertex) (n : Nat) :
    Graph.vertex vs.toArray n ∈ vs ∨ Graph.vertex vs.toArray n = Graph.blank := by
  refine (vertex_cases vs.toArray n).imp_left fun h => ?_
  rw [List.getElem?_toArray] at h
  exact List.mem_of_getElem? h

theorem allRegular_node {t : Node} (hstrict : t.isStrict = true) : AllRegular (t.vertices 0).toArray := by
  intro n
  rcases mem_or_blank (t.vertices 0) n with hmem | hblank
  · exact t.regular 0 hstrict (holds_toArray _) _ hmem
  · rw [hblank]
    exact .scalar "" ⟨rfl, rfl⟩

section AllRegular

variable {g : Graph} {n : Nat} {tag : Yaml.Tag} {text : String}

theorem AllRegular.unmerged (h : AllRegular g) : g.Unmerged := by
  intro n
  have hn := h n
  rw [Graph.tag]
  generalize g.vertex n = v at hn
  cases hn with
  | scalar text htag => exact htag.2
  | list | map => rfl

/-- The value of a scalar in a graph is that of its text. -/
theorem scalarOf_eq (h : g.vertex n = ⟨tag, .scalar text⟩) : scalarOf g n = tag.scalarValue text := by
  have htext : g.textOf n = some text := by rw [Graph.textOf, Graph.textWithin, h]
  rw [scalarOf, htext, Graph.tag, h]
  cases tag <;> rfl

theorem AllRegular.valued (h : AllRegular g)
    (hscalars : ∀ n text, (g.vertex n).content = .scalar text →
      ∃ s, (g.vertex n).tag.scalarValue text = .ok s) : g.Valued where
  scalars n hn := by
    have hregular := h n
    have hvalue := hscalars n
    rw [Graph.tag] at hn
    generalize hv : g.vertex n = v at hn hregular hvalue
    cases hregular with
    | scalar text htag =>
      rw [scalarOf_eq hv]
      exact hvalue text rfl
    | list | map => cases hn
  lists n hn := by
    have hregular := h n
    rw [Graph.tag] at hn
    generalize g.vertex n = v at hn hregular
    cases hregular with
    | scalar text htag =>
      obtain rfl := hn
      exact Bool.noConfusion htag.1
    | list items => exact ⟨items, rfl⟩
    | map => cases hn
  maps n hn := by
    have hregular := h n
    rw [Graph.tag] at hn
    generalize g.vertex n = v at hn hregular
    cases hregular with
    | scalar text htag =>
      obtain rfl := hn
      exact Bool.noConfusion htag.1
    | list items => cases hn
    | map hes =>
      refine ⟨_, rfl, fun e he => ?_⟩
      obtain ⟨text, htext⟩ := hes e he
      refine ⟨lt_size_of htext, ?_⟩
      rw [Graph.tag, vertex_of htext]
      rfl

end AllRegular

mutual

/-- The scalars of a value have values, when its integers have. -/
theorem Node.valued : (t : Node) → (n : Nat) → t.isStrict = true → t.all .sized = true →
    ∀ v ∈ t.vertices n, ∀ text, v.content = .scalar text → ∃ s, v.tag.scalarValue text = .ok s
  | .word w, n, hstrict, _ => by
    intro v hv text hcontent
    rw [List.mem_singleton.1 hv] at hcontent ⊢
    cases hcontent
    exact ⟨w.value, scalarValue_word hstrict⟩
  | .number m, n, _, hsized => by
    intro v hv text hcontent
    rw [List.mem_singleton.1 hv] at hcontent ⊢
    cases hcontent
    have hvalue := scalarValue_number m
    rw [show m.fits = true from hsized] at hvalue
    exact ⟨m.reread, hvalue⟩
  | .text b, n, _, _ => by
    intro v hv text hcontent
    rw [List.mem_singleton.1 hv]
    exact ⟨.str text, rfl⟩
  | .emptyList _, n, _, _ => by
    intro v hv text hcontent
    rw [List.mem_singleton.1 hv] at hcontent
    cases hcontent
  | .list items, n, hstrict, hsized => by
    intro v hv text hcontent
    rcases List.mem_cons.1 hv with rfl | hv
    · cases hcontent
    · exact items.valued (n + 1) hstrict hsized v hv text hcontent
  | .emptyObject _, n, _, _ => by
    intro v hv text hcontent
    rw [List.mem_singleton.1 hv] at hcontent
    cases hcontent
  | .object members, n, hstrict, hsized => by
    intro v hv text hcontent
    rcases List.mem_cons.1 hv with rfl | hv
    · cases hcontent
    · exact members.valued (n + 1) hstrict hsized v hv text hcontent

/-- The scalars of items have values, when their integers have. -/
theorem Items.valued : (items : Items) → (n : Nat) → items.isStrict = true → items.all .sized = true →
    ∀ v ∈ items.vertices n, ∀ text, v.content = .scalar text → ∃ s, v.tag.scalarValue text = .ok s
  | .last _ item _, n, hstrict, hsized => by
    refine item.valued n hstrict ?_
    simpa [Items.all, Checks.sized] using hsized
  | .more _ item _ rest, n, hstrict, hsized => by
    obtain ⟨hitem, hothers⟩ := (Bool.and_eq_true _ _).mp hstrict
    have hsizes : item.all .sized = true ∧ rest.all .sized = true := by
      simpa [Items.all, Checks.sized] using hsized
    intro v hv
    rcases List.mem_append.1 hv with hv | hv
    · exact item.valued n hitem hsizes.1 v hv
    · exact rest.valued (n + item.size) hothers hsizes.2 v hv

/-- The scalars of members have values, when their integers have. -/
theorem Members.valued : (members : Members) → (n : Nat) → members.isStrict = true →
    members.all .sized = true →
    ∀ v ∈ members.vertices n, ∀ text, v.content = .scalar text → ∃ s, v.tag.scalarValue text = .ok s
  | .last _ name _ _ item _, n, hstrict, hsized => by
    have hsize : item.all .sized = true := by simpa [Members.all, Checks.sized] using hsized
    intro v hv text hcontent
    rcases List.mem_cons.1 hv with rfl | hv
    · exact ⟨.str text, rfl⟩
    · exact item.valued (n + 1) hstrict hsize v hv text hcontent
  | .more _ name _ _ item _ rest, n, hstrict, hsized => by
    obtain ⟨hitem, hothers⟩ := (Bool.and_eq_true _ _).mp hstrict
    have hsizes : item.all .sized = true ∧ rest.all .sized = true := by
      simpa [Members.all, Checks.sized] using hsized
    intro v hv text hcontent
    rcases List.mem_append.1 hv with hv | hv
    · rcases List.mem_cons.1 hv with rfl | hv
      · exact ⟨.str text, rfl⟩
      · exact item.valued (n + 1) hitem hsizes.1 v hv text hcontent
    · exact rest.valued (n + (item.size + 1)) hothers hsizes.2 v hv text hcontent

end

theorem valued_node {t : Node} (hstrict : t.isStrict = true) (hsized : t.all .sized = true) :
    Graph.Valued (t.vertices 0).toArray := by
  refine (allRegular_node hstrict).valued fun n text hcontent => ?_
  rcases mem_or_blank (t.vertices 0) n with hmem | hblank
  · exact t.valued 0 hstrict hsized _ hmem text hcontent
  · rw [hblank]
    exact ⟨.null, rfl⟩

/-! ### Mappings entry by entry -/

/-- A mapping with keys of which those with one number are one key is the mapping stored entry by entry. -/
theorem values_insert (key : Meaning.NumberedKey) (m : Meaning) (entries : List (Meaning.NumberedKey × Meaning))
    (h : ∀ e ∈ entries, e.1.1 = key.1 → e.1.2.sameKey key.2 = true) :
    (Meaning.insert key m entries).map (fun e => (Key.scalar e.1.2, e.2.value))
      = Entries.set (.scalar key.2) m.value (entries.map fun e => (Key.scalar e.1.2, e.2.value)) := by
  induction entries with
  | nil => rfl
  | cons e entries ih =>
    obtain ⟨k, other⟩ := e
    have hsame : Meaning.sameKey k key = (Key.scalar k.2).same (.scalar key.2) := by
      rw [Meaning.sameKey, Key.same]
      cases hnumber : k.1 == key.1 with
      | false => rw [Bool.false_or]
      | true => rw [Bool.true_or, h (k, other) (List.mem_cons_self ..) (beq_iff_eq.1 hnumber)]
    rw [Meaning.insert, hsame, List.map_cons, Entries.set]
    split
    · rfl
    · rw [List.map_cons, ih fun e he => h e (List.mem_cons_of_mem _ he)]

theorem key_of_mem_insert {key : Meaning.NumberedKey} {m : Meaning} {entries : List (Meaning.NumberedKey × Meaning)}
    {e : Meaning.NumberedKey × Meaning} (h : e ∈ Meaning.insert key m entries) :
    e.1 = key ∨ ∃ e' ∈ entries, e.1 = e'.1 := by
  induction entries with
  | nil => exact .inl (by rw [List.mem_singleton.1 h])
  | cons e' entries ih =>
    obtain ⟨k, other⟩ := e'
    rw [Meaning.insert] at h
    split at h
    · rcases List.mem_cons.1 h with rfl | h
      · exact .inr ⟨(k, other), List.mem_cons_self .., rfl⟩
      · exact .inr ⟨e, List.mem_cons_of_mem _ h, rfl⟩
    · rcases List.mem_cons.1 h with rfl | h
      · exact .inr ⟨(k, other), List.mem_cons_self .., rfl⟩
      · exact (ih h).imp_right fun ⟨e', he', heq⟩ => ⟨e', List.mem_cons_of_mem _ he', heq⟩

/-- A mapping the keys of which are texts that their numbers tell is the mapping stored entry by entry. -/
theorem value_map (scalar : Nat → Scalar) (pairs : List (Meaning.NumberedKey × Meaning))
    (h : ∀ e ∈ pairs, e.1.2 = scalar e.1.1 ∧ ∃ text, e.1.2 = .str text) :
    (Meaning.map pairs).value = .map (Entries.ofPairs (pairs.map fun e => (Key.scalar e.1.2, e.2.value))) := by
  have hfold : ∀ (pairs out : List (Meaning.NumberedKey × Meaning)),
      (∀ e ∈ pairs, e.1.2 = scalar e.1.1 ∧ ∃ text, e.1.2 = .str text) →
      (∀ e ∈ out, e.1.2 = scalar e.1.1) →
      (pairs.foldl (fun out e => Meaning.insert e.1 e.2 out) out).map (fun e => (Key.scalar e.1.2, e.2.value))
        = (pairs.map fun e => (Key.scalar e.1.2, e.2.value)).foldl (fun es e => Entries.set e.1 e.2 es)
          (out.map fun e => (Key.scalar e.1.2, e.2.value)) := by
    intro pairs
    induction pairs with
    | nil => exact fun out _ _ => rfl
    | cons e pairs ih =>
      intro out hpairs hout
      obtain ⟨hscalar, text, htext⟩ := hpairs e (List.mem_cons_self ..)
      have hsame : ∀ e' ∈ out, e'.1.1 = e.1.1 → e'.1.2.sameKey e.1.2 = true := by
        intro e' he' hnumber
        rw [hout e' he', hnumber, ← hscalar, htext]
        simp [Scalar.sameKey, Scalar.same, Scalar.integer?]
      rw [List.foldl_cons, List.map_cons, List.foldl_cons, ← values_insert e.1 e.2 out hsame]
      refine ih _ (fun e he => hpairs e (List.mem_cons_of_mem _ he)) fun e' he' => ?_
      rcases key_of_mem_insert he' with heq | ⟨e'', he'', heq⟩
      · rw [heq, hscalar]
      · rw [heq, hout e'' he'']
  exact congrArg Value.map (hfold pairs [] h (by simp))

/-! ### Values of nodes -/

section Parts

variable {g : Graph} {r : Reading} {n : Nat}

/-- A node that is known has a part, and its turn is over. -/
theorem exists_part (hr : Reading.Sound g [] r) (hqueue : r.queue = []) (hn : n < g.size) (h : r.Known n) :
    ∃ p, r.part? n = some p ∧ Reading.Explains g r [] n p ∧ p ≠ .waiting := by
  obtain ⟨p, hp⟩ := Option.isSome_iff_exists.1 (h (hr.size ▸ hn))
  have hexplains := hr.parts n p hp
  refine ⟨p, hp, hexplains, ?_⟩
  rintro rfl
  rcases hexplains.2 with hmem | hmem
  · rw [hqueue] at hmem
    cases hmem
  · cases hmem

theorem part_scalar {tag : Yaml.Tag} {text : String} (hr : Reading.Sound g [] r) (hqueue : r.queue = [])
    (hv : g[n]? = some ⟨tag, .scalar text⟩) (htag : isComposite tag = false) (h : r.Known n) :
    ∃ s, r.part? n = some (.scalar s) ∧ tag.scalarValue text = .ok s := by
  obtain ⟨p, hp, hexplains, hdone⟩ := exists_part hr hqueue (lt_size_of hv) h
  have hgtag : g.tag n = tag := by rw [Graph.tag, vertex_of hv]
  cases p with
  | scalar s => exact ⟨s, hp, by rw [← hexplains.2, scalarOf_eq (vertex_of hv)]⟩
  | waiting => exact absurd rfl hdone
  | list items =>
    rw [hgtag.symm.trans hexplains.1] at htag
    exact Bool.noConfusion htag
  | map es =>
    rw [hgtag.symm.trans hexplains.1] at htag
    exact Bool.noConfusion htag
  | pairs | set => exact hexplains.elim

theorem part_list {items : List Nat} (hr : Reading.Sound g [] r) (hqueue : r.queue = [])
    (hv : g[n]? = some ⟨.seq, .sequence items⟩) (h : r.Known n) :
    r.part? n = some (.list items) ∧ ∀ i ∈ items, r.Known i := by
  obtain ⟨p, hp, hexplains, hdone⟩ := exists_part hr hqueue (lt_size_of hv) h
  have hgtag : g.tag n = .seq := by rw [Graph.tag, vertex_of hv]
  cases p with
  | scalar s =>
    rw [Reading.Explains, hgtag] at hexplains
    exact Bool.noConfusion hexplains.1
  | waiting => exact absurd rfl hdone
  | list items' =>
    obtain ⟨-, hcontent, hknown⟩ := hexplains
    rw [vertex_of hv] at hcontent
    cases hcontent
    exact ⟨hp, hknown⟩
  | map es => exact absurd (hgtag.symm.trans hexplains.1) (by decide)
  | pairs | set => exact hexplains.elim

theorem part_map {es : List (Nat × Nat)} (hr : Reading.Sound g [] r) (hqueue : r.queue = [])
    (hv : g[n]? = some ⟨.map, .mapping es⟩) (h : r.Known n) :
    r.part? n = some (.map es) ∧ ∀ e ∈ es, r.Known e.1 ∧ r.Known e.2 := by
  obtain ⟨p, hp, hexplains, hdone⟩ := exists_part hr hqueue (lt_size_of hv) h
  have hgtag : g.tag n = .map := by rw [Graph.tag, vertex_of hv]
  cases p with
  | scalar s =>
    rw [Reading.Explains, hgtag] at hexplains
    exact Bool.noConfusion hexplains.1
  | waiting => exact absurd rfl hdone
  | list items => exact absurd (hgtag.symm.trans hexplains.1) (by decide)
  | map es' =>
    obtain ⟨-, hcontent, hknown⟩ := hexplains
    rw [vertex_of hv] at hcontent
    cases hcontent
    exact ⟨hp, hknown⟩
  | pairs | set => exact hexplains.elim

/-- A text is known as the text that it is. -/
theorem scalar_text {text : String} (hr : Reading.Sound g [] r) (hqueue : r.queue = [])
    (hv : g[n]? = some (scalarVertex false text)) (h : r.Known n) : Parts.scalar r.parts n = .str text := by
  obtain ⟨s, hs, hvalue⟩ := part_scalar hr hqueue hv rfl h
  obtain rfl : Scalar.str text = s := Except.ok.inj hvalue
  rw [Parts.scalar, show r.parts.getD n none = some (.scalar (.str text)) from hs]

/-! ### What a node is among its parts -/

variable {ps : Parts} {around : List (Option Nat)}

/-- Only numbers before a number stand around it. -/
def Before (around : List (Option Nat)) (n : Nat) : Prop := ∀ k, some k ∈ around → k < n

theorem Before.not_contains (h : Before around n) : around.contains (some n) = false := by
  rw [List.contains_eq_mem, decide_eq_false_iff_not]
  exact fun hmem => Nat.lt_irrefl n (h n hmem)

theorem Before.mono {m : Nat} (h : Before around n) (hm : n ≤ m) : Before around m :=
  fun k hk => Nat.lt_of_lt_of_le (h k hk) hm

theorem Before.cons (h : Before around n) : Before (some n :: around) (n + 1) := by
  intro k hk
  rcases List.mem_cons.1 hk with heq | hk
  · obtain rfl := Option.some.inj heq
    exact Nat.lt_succ_self _
  · exact Nat.lt_succ_of_lt (h k hk)

theorem value_meaning_scalar {s : Scalar} (count : Nat) (hbefore : Before around n)
    (h : r.part? n = some (.scalar s)) : (Parts.meaning r.parts (count + 1) around n).value = .scalar s := by
  rw [Parts.meaning, hbefore.not_contains, if_neg Bool.false_ne_true,
    show r.parts.getD n none = some (.scalar s) from h]
  cases s <;> rfl

theorem value_meaning_list {items : List Nat} (count : Nat) (hbefore : Before around n)
    (h : r.part? n = some (.list items)) : (Parts.meaning r.parts (count + 1) around n).value =
      .list (items.map fun i => (Parts.meaning r.parts count (some n :: around) i).value) := by
  rw [Parts.meaning, hbefore.not_contains, if_neg Bool.false_ne_true,
    show r.parts.getD n none = some (.list items) from h]
  show Value.list ((items.map _).map _) = _
  rw [List.map_map]
  rfl

theorem value_meaning_map {es : List (Nat × Nat)} (count : Nat) (hbefore : Before around n)
    (h : r.part? n = some (.map es)) (hnames : ∀ e ∈ es, ∃ text, Parts.scalar r.parts e.1 = .str text) :
    (Parts.meaning r.parts (count + 1) around n).value = .map (Entries.ofPairs (es.map fun e =>
      (.scalar (Parts.scalar r.parts e.1), (Parts.meaning r.parts count (some n :: around) e.2).value))) := by
  rw [Parts.meaning, hbefore.not_contains, if_neg Bool.false_ne_true,
    show r.parts.getD n none = some (.map es) from h]
  show (Meaning.map (es.map _)).value = _
  rw [value_map (Parts.scalar r.parts), List.map_map]
  · rfl
  · intro e he
    obtain ⟨e', he', rfl⟩ := List.mem_map.1 he
    exact ⟨rfl, hnames e' he'⟩

end Parts

mutual

/-- The value of a node is what its part of the text is read as, and its integers have values. -/
theorem Node.value_meaning {g : Graph} {r : Reading} (hr : Reading.Sound g [] r) (hqueue : r.queue = []) :
    (t : Node) → (n count : Nat) → (around : List (Option Nat)) → t.isStrict = true →
    Holds g n (t.vertices n) → r.Known n → t.size ≤ count → Before around n →
    t.all .sized = true ∧ (Parts.meaning r.parts count around n).value = t.reread
  | .word w, n, count + 1, around, hstrict, h, hknown, _, hbefore => by
    obtain ⟨s, hs, hvalue⟩ := part_scalar hr hqueue h.head (scalarTag_word hstrict).1 hknown
    obtain rfl : w.value = s := Except.ok.inj ((scalarValue_word hstrict).symm.trans hvalue)
    exact ⟨rfl, value_meaning_scalar count hbefore hs⟩
  | .number m, n, count + 1, around, _, h, hknown, _, hbefore => by
    obtain ⟨s, hs, hvalue⟩ := part_scalar hr hqueue h.head (scalarTag_number m).1 hknown
    have hread : Outcome (.ok s) m.fits m.reread := hvalue ▸ scalarValue_number m
    cases hfits : m.fits with
    | false =>
      rw [hfits] at hread
      obtain ⟨f, hf⟩ := hread
      cases hf
    | true =>
      rw [hfits] at hread
      obtain rfl : s = m.reread := Except.ok.inj hread
      exact ⟨hfits, value_meaning_scalar count hbefore hs⟩
  | .text b, n, count + 1, around, _, h, hknown, _, hbefore => by
    obtain ⟨s, hs, hvalue⟩ := part_scalar hr hqueue h.head rfl hknown
    obtain rfl : Scalar.str b.reread = s := Except.ok.inj hvalue
    exact ⟨rfl, value_meaning_scalar count hbefore hs⟩
  | .emptyList _, n, count + 1, around, _, h, hknown, _, hbefore =>
    ⟨rfl, value_meaning_list count hbefore (part_list hr hqueue h.head hknown).1⟩
  | .list items, n, count + 1, around, hstrict, h, hknown, hcount, hbefore => by
    obtain ⟨hpart, hitems⟩ := part_list hr hqueue h.head hknown
    obtain ⟨hsized, hvalues⟩ := items.value_meaning hr hqueue (n + 1) count (some n :: around) hstrict h.tail hitems
      (Nat.le_of_succ_le_succ hcount) hbefore.cons
    exact ⟨hsized, by rw [value_meaning_list count hbefore hpart, hvalues]; rfl⟩
  | .emptyObject _, n, count + 1, around, _, h, hknown, _, hbefore =>
    ⟨rfl, value_meaning_map count hbefore (part_map hr hqueue h.head hknown).1 (by simp)⟩
  | .object members, n, count + 1, around, hstrict, h, hknown, hcount, hbefore => by
    obtain ⟨hpart, hmembers⟩ := part_map hr hqueue h.head hknown
    obtain ⟨hsized, hvalues⟩ := members.value_meaning hr hqueue (n + 1) count (some n :: around) hstrict h.tail
      hmembers (Nat.le_of_succ_le_succ hcount) hbefore.cons
    have hnames : ∀ e ∈ members.roots (n + 1), ∃ text, Parts.scalar r.parts e.1 = .str text := by
      intro e he
      obtain ⟨text, htext⟩ := members.holds_names (n + 1) h.tail e he
      exact ⟨text, scalar_text hr hqueue htext (hmembers e he).1⟩
    exact ⟨hsized, by rw [value_meaning_map count hbefore hpart hnames, hvalues]; rfl⟩

/-- The values of items are what their parts of the text are read as. -/
theorem Items.value_meaning {g : Graph} {r : Reading} (hr : Reading.Sound g [] r) (hqueue : r.queue = []) :
    (items : Items) → (n count : Nat) → (around : List (Option Nat)) → items.isStrict = true →
    Holds g n (items.vertices n) → (∀ i ∈ items.roots n, r.Known i) → items.size ≤ count → Before around n →
    items.all .sized = true
      ∧ (items.roots n).map (fun i => (Parts.meaning r.parts count around i).value) = items.reread
  | .last before item after, n, count, around, hstrict, h, hknown, hcount, hbefore => by
    obtain ⟨hsized, hvalue⟩ := item.value_meaning hr hqueue n count around hstrict h
      (hknown n (List.mem_singleton_self n)) hcount hbefore
    refine ⟨by simpa [Items.all, Checks.sized] using hsized, ?_⟩
    rw [Items.roots, List.map_singleton, hvalue, Items.reread]
  | .more before item after rest, n, count, around, hstrict, h, hknown, hcount, hbefore => by
    obtain ⟨hitem, hothers⟩ := (Bool.and_eq_true _ _).mp hstrict
    have hrest := h.right
    rw [Node.length_vertices] at hrest
    have hcounts : item.size ≤ count ∧ rest.size ≤ count := by
      rw [Items.size] at hcount
      omega
    obtain ⟨hsized, hvalue⟩ := item.value_meaning hr hqueue n count around hitem h.left
      (hknown n (List.mem_cons_self ..)) hcounts.1 hbefore
    obtain ⟨hsizes, hvalues⟩ := rest.value_meaning hr hqueue (n + item.size) count around hothers hrest
      (fun i hi => hknown i (List.mem_cons_of_mem _ hi)) hcounts.2 (hbefore.mono (Nat.le_add_right ..))
    refine ⟨by simpa [Items.all, Checks.sized] using And.intro hsized hsizes, ?_⟩
    rw [Items.roots, List.map_cons, hvalue, hvalues, Items.reread]

/-- The names and values of members are what their parts of the text are read as. -/
theorem Members.value_meaning {g : Graph} {r : Reading} (hr : Reading.Sound g [] r) (hqueue : r.queue = []) :
    (members : Members) → (n count : Nat) → (around : List (Option Nat)) → members.isStrict = true →
    Holds g n (members.vertices n) → (∀ e ∈ members.roots n, r.Known e.1 ∧ r.Known e.2) →
    members.size ≤ count → Before around n →
    members.all .sized = true
      ∧ (members.roots n).map (fun e => (Key.scalar (Parts.scalar r.parts e.1),
        (Parts.meaning r.parts count around e.2).value)) = members.reread
  | .last before name behind ahead item after, n, count, around, hstrict, h, hknown, hcount, hbefore => by
    have hroot := hknown (n, n + 1) (List.mem_singleton_self _)
    have hitem : item.size ≤ count := by
      rw [Members.size] at hcount
      omega
    obtain ⟨hsized, hvalue⟩ := item.value_meaning hr hqueue (n + 1) count around hstrict h.tail
      hroot.2 hitem (hbefore.mono (Nat.le_succ n))
    refine ⟨by simpa [Members.all, Checks.sized] using hsized, ?_⟩
    rw [Members.roots, List.map_singleton, hvalue, scalar_text hr hqueue h.head hroot.1, Members.reread]
  | .more before name behind ahead item after rest, n, count, around, hstrict, h, hknown, hcount, hbefore => by
    obtain ⟨hitem, hothers⟩ := (Bool.and_eq_true _ _).mp hstrict
    have hroot := hknown (n, n + 1) (List.mem_cons_self ..)
    have hrest := h.right
    rw [List.length_cons, Node.length_vertices] at hrest
    have hcounts : item.size ≤ count ∧ rest.size ≤ count := by
      rw [Members.size] at hcount
      omega
    obtain ⟨hsized, hvalue⟩ := item.value_meaning hr hqueue (n + 1) count around hitem h.left.tail
      hroot.2 hcounts.1 (hbefore.mono (Nat.le_succ n))
    obtain ⟨hsizes, hvalues⟩ := rest.value_meaning hr hqueue (n + (item.size + 1)) count around hothers hrest
      (fun e he => hknown e (List.mem_cons_of_mem _ he)) hcounts.2 (hbefore.mono (Nat.le_add_right ..))
    refine ⟨by simpa [Members.all, Checks.sized] using And.intro hsized hsizes, ?_⟩
    rw [Members.roots, List.map_cons, hvalue, hvalues, scalar_text hr hqueue h.left.head hroot.1, Members.reread]

end

/-- What the graph of a value was read to. -/
theorem value_run {t : Node} (hstrict : t.isStrict = true) {ps : Parts}
    (h : Reading.run (t.vertices 0).toArray = .ok ps) : t.all .sized = true
      ∧ (Parts.meaning ps ((t.vertices 0).toArray.size + 1) [] 0).value = t.reread := by
  obtain ⟨r, rfl, hr, hqueue, hknown⟩ := Reading.run_closed (allRegular_node hstrict).unmerged h
  refine t.value_meaning hr hqueue 0 _ [] hstrict (holds_toArray _) hknown ?_ ?_
  · rw [List.size_toArray, Node.length_vertices]
    exact Nat.le_succ _
  · exact fun k hk => absurd hk List.not_mem_nil

/-- **The graph of a value has a value exactly when its integers have one, and then it is what the text is read
as.** -/
theorem valueOf_node {t : Node} (hstrict : t.isStrict = true) :
    Outcome ((valueOf (t.vertices 0).toArray).map (·.1)) (t.all .sized) t.reread := by
  cases hrun : Reading.run (t.vertices 0).toArray with
  | ok ps =>
    obtain ⟨hsized, hvalue⟩ := value_run hstrict hrun
    rw [hsized, valueOf, hrun]
    exact congrArg Except.ok hvalue
  | error f =>
    cases hsized : t.all .sized with
    | false => exact ⟨f, by rw [valueOf, hrun]; rfl⟩
    | true =>
      obtain ⟨ps, hps⟩ := Reading.exists_run (allRegular_node hstrict).unmerged (valued_node hstrict hsized)
      rw [hrun] at hps
      cases hps

end RouteDoc.Json
