import RouteDoc.Proofs.Yaml.Progress
import RouteDoc.Proofs.Yaml.Tokens

/-!
# The nodes of JSON texts

From the tokens of a JSON text the parser builds a graph in which every node has one place, numbered in the
order in which nodes begin.  It does so exactly when every name has been marked as a key; a colon without a
marked key ends the reading.

* `Node.vertices` — the nodes of a value, numbered from a number on;
* `readNode_node`, `readFlowItems_items`, `readFlowEntries_members` — what the parser makes of the tokens;
* `ofText_source` — the graph of a whole text.
-/

namespace RouteDoc.Json

open Yaml

/-! ### Nodes and their numbers -/

/-- The node of a scalar. -/
def scalarVertex (plain : Bool) (text : String) : Vertex := ⟨scalarTag plain text none, .scalar text⟩

mutual

/-- The number of nodes of a value. -/
def Node.size : Node → Nat
  | .word _ | .number _ | .text _ | .emptyList _ | .emptyObject _ => 1
  | .list items => items.size + 1
  | .object members => members.size + 1

/-- The number of nodes of items. -/
def Items.size : Items → Nat
  | .last _ item _ => item.size
  | .more _ item _ rest => item.size + rest.size

/-- The number of nodes of members. -/
def Members.size : Members → Nat
  | .last _ _ _ _ item _ => item.size + 1
  | .more _ _ _ _ item _ rest => item.size + 1 + rest.size

end

/-- The numbers of items. -/
def Items.roots (n : Nat) : Items → List Nat
  | .last _ _ _ => [n]
  | .more _ item _ rest => n :: rest.roots (n + item.size)

/-- The numbers of names and values. -/
def Members.roots (n : Nat) : Members → List (Nat × Nat)
  | .last _ _ _ _ _ _ => [(n, n + 1)]
  | .more _ _ _ _ item _ rest => (n, n + 1) :: rest.roots (n + (item.size + 1))

mutual

/-- The nodes of a value, the first of which has a number. -/
def Node.vertices (n : Nat) : Node → List Vertex
  | .word w => [scalarVertex true (String.ofList w.chars)]
  | .number m => [scalarVertex true (String.ofList m.chars)]
  | .text b => [scalarVertex false b.reread]
  | .emptyList _ => [⟨.seq, .sequence []⟩]
  | .list items => ⟨.seq, .sequence (items.roots (n + 1))⟩ :: items.vertices (n + 1)
  | .emptyObject _ => [⟨.map, .mapping []⟩]
  | .object members => ⟨.map, .mapping (members.roots (n + 1))⟩ :: members.vertices (n + 1)

/-- The nodes of items. -/
def Items.vertices (n : Nat) : Items → List Vertex
  | .last _ item _ => item.vertices n
  | .more _ item _ rest => item.vertices n ++ rest.vertices (n + item.size)

/-- The nodes of members. -/
def Members.vertices (n : Nat) : Members → List Vertex
  | .last _ name _ _ item _ => scalarVertex false name.reread :: item.vertices (n + 1)
  | .more _ name _ _ item _ rest =>
    (scalarVertex false name.reread :: item.vertices (n + 1)) ++ rest.vertices (n + (item.size + 1))

end

mutual

theorem Node.length_vertices : (t : Node) → (n : Nat) → (t.vertices n).length = t.size
  | .word _, _ | .number _, _ | .text _, _ | .emptyList _, _ | .emptyObject _, _ => rfl
  | .list items, n => by rw [Node.vertices, List.length_cons, Items.length_vertices, Node.size]
  | .object members, n => by rw [Node.vertices, List.length_cons, Members.length_vertices, Node.size]

theorem Items.length_vertices : (items : Items) → (n : Nat) → (items.vertices n).length = items.size
  | .last _ item _, n => Node.length_vertices item n
  | .more _ item _ rest, n => by
    rw [Items.vertices, List.length_append, Node.length_vertices, Items.length_vertices, Items.size]

theorem Members.length_vertices : (members : Members) → (n : Nat) → (members.vertices n).length = members.size
  | .last _ _ _ _ item _, n => by rw [Members.vertices, List.length_cons, Node.length_vertices, Members.size]
  | .more _ _ _ _ item _ rest, n => by
    rw [Members.vertices, List.length_append, List.length_cons, Node.length_vertices, Members.length_vertices,
      Members.size]

end

/-! ### Steps of the parser -/

/-- A value when a condition holds, and a failure otherwise. -/
def Outcome {α : Type} (x : Read α) (ok : Bool) (a : α) : Prop := if ok then x = .ok a else ∃ f, x = .error f

section Outcome

variable {α β : Type} {x : Read α} {f : α → Read β} {ok : Bool} {a : α} {b : β}

theorem Outcome.bind {ok' : Bool} (h : Outcome x ok a) (h' : Outcome (f a) ok' b) :
    Outcome (x.bind f) (ok && ok') b := by
  cases ok with
  | false =>
    obtain ⟨e, he⟩ := h
    exact ⟨e, by rw [he]; rfl⟩
  | true =>
    rw [show x = .ok a from h]
    exact h'

/-- What comes after cannot fail. -/
theorem Outcome.then (h : Outcome x ok a) (h' : f a = .ok b) : Outcome (x.bind f) ok b := by
  rw [← Bool.and_true ok]
  exact h.bind (show Outcome (f a) true b from h')

end Outcome

/-- The parser behind some nodes. -/
def past (r : Yaml.Reader) (ts : List Token) (vs : List Vertex) : Yaml.Reader :=
  { r with tokens := ts, graph := r.graph ++ vs.toArray }

section Past

variable {r : Yaml.Reader} {ts us : List Token} {vs ws : List Vertex} {v : Vertex} {n : Nat}

@[simp] theorem past_tokens : (past r ts vs).tokens = ts := rfl

@[simp] theorem past_names : (past r ts vs).names = r.names := rfl

@[simp] theorem past_size : (past r ts vs).graph.size = r.graph.size + vs.length := by simp [past]

theorem past_past : past (past r ts vs) us ws = past r us (vs ++ ws) := by simp [past]

/-- A node that is filled in after the nodes inside it. -/
theorem past_fill (vs : List Vertex) (tag : Yaml.Tag) (content : Yaml.Content) (hn : n = r.graph.size) :
    (past r ts (Graph.blank :: vs)).fill n tag content = past r ts (⟨tag, content⟩ :: vs) := by
  subst hn
  have hset : (r.graph ++ (Graph.blank :: vs).toArray).setIfInBounds r.graph.size ⟨tag, content⟩
      = r.graph ++ (⟨tag, content⟩ :: vs).toArray := by
    apply Array.toList_inj.1
    simp
  simp only [Yaml.Reader.fill, past, Graph.define, hset]

end Past

/-- The tokens that a value begins with. -/
def opens : Token → Bool
  | .scalar .. | .flowSequenceStart | .flowMappingStart => true
  | _ => false

theorem Node.exists_token (t : Node) : ∃ u us, t.tokens = u :: us ∧ opens u = true := by
  cases t <;> exact ⟨_, _, rfl, rfl⟩

section Parser

variable {r : Yaml.Reader} {block indentless : Bool} {ts : List Token}

/-- Nothing stands in front of a value. -/
theorem readProperties_opens {u : Token} (h : r.tokens = u :: ts) (hu : opens u = true) :
    readProperties r = .ok (⟨none, none⟩, r) := by
  rw [readProperties, Yaml.Reader.peek, h]
  cases u <;> first | rfl | exact Bool.noConfusion hu

theorem readNode_scalar (count : Nat) {text : String} {plain : Bool} (h : r.tokens = .scalar text plain :: ts) :
    readNode block indentless (count + 1) r = .ok (r.graph.size, past r ts [scalarVertex plain text]) := by
  have hpeek : r.peek = .ok (.scalar text plain) := by rw [Yaml.Reader.peek, h]
  have hfresh : r.fresh.2.drop = past r ts [Graph.blank] := by
    simp [Yaml.Reader.fresh, Yaml.Reader.drop, past, h]
  rw [readNode.eq_def]
  simp only [h]
  rw [readProperties_opens h rfl]
  show (r.peek.bind _) = _
  rw [hpeek]
  show Except.ok (r.graph.size, Yaml.Reader.fill r.graph.size (scalarTag plain text none) (.scalar text) r.fresh.2.drop) = _
  rw [hfresh, past_fill [] _ _ rfl]
  rfl

theorem drop_eq {t : Token} (h : r.tokens = t :: ts) : r.drop = past r ts [] := by
  simp [Yaml.Reader.drop, past, h]

theorem readNode_list (count : Nat) (h : r.tokens = .flowSequenceStart :: ts) :
    readNode block indentless (count + 1) r = (readFlowItems true count (past r ts [Graph.blank])).bind
      fun (items, r') => .ok (r.graph.size, r'.fill r.graph.size .seq (.sequence items)) := by
  have hpeek : r.peek = .ok .flowSequenceStart := by rw [Yaml.Reader.peek, h]
  have hfresh : r.fresh.2.drop = past r ts [Graph.blank] := by
    simp [Yaml.Reader.fresh, Yaml.Reader.drop, past, h]
  rw [readNode.eq_def]
  simp only [h]
  rw [readProperties_opens h rfl]
  show (r.peek.bind _) = _
  rw [hpeek, ← hfresh]
  rfl

theorem readNode_object (count : Nat) (h : r.tokens = .flowMappingStart :: ts) :
    readNode block indentless (count + 1) r = (readFlowEntries true count (past r ts [Graph.blank])).bind
      fun (entries, r') => .ok (r.graph.size, r'.fill r.graph.size .map (.mapping entries)) := by
  have hpeek : r.peek = .ok .flowMappingStart := by rw [Yaml.Reader.peek, h]
  have hfresh : r.fresh.2.drop = past r ts [Graph.blank] := by
    simp [Yaml.Reader.fresh, Yaml.Reader.drop, past, h]
  rw [readNode.eq_def]
  simp only [h]
  rw [readProperties_opens h rfl]
  show (r.peek.bind _) = _
  rw [hpeek, ← hfresh]
  rfl

/-- What stands in front of an item: nothing in front of the first one, a comma in front of the others. -/
def comma (first : Bool) : List Token := if first then [] else [.flowEntry]

theorem readFlowItems_end (ts : List Token) (first : Bool) (count : Nat) (h : r.tokens = .flowSequenceEnd :: ts) :
    readFlowItems first (count + 1) r = .ok ([], past r ts []) := by
  rw [readFlowItems, Yaml.Reader.peek, h, drop_eq h]
  rfl

theorem readFlowEntries_end (ts : List Token) (first : Bool) (count : Nat) (h : r.tokens = .flowMappingEnd :: ts) :
    readFlowEntries first (count + 1) r = .ok ([], past r ts []) := by
  rw [readFlowEntries, Yaml.Reader.peek, h, drop_eq h]
  rfl

theorem readFlowItems_item (first : Bool) (count : Nat) {u : Token} (hu : opens u = true)
    (h : r.tokens = comma first ++ u :: ts) :
    readFlowItems first (count + 1) r = (readNode false false count { r with tokens := u :: ts }).bind
      fun (item, r') => (readFlowItems false count r').bind fun (items, r'') => .ok (item :: items, r'') := by
  obtain ⟨tokens, failure, names, handles, graph⟩ := r
  obtain rfl : tokens = _ := h
  rw [readFlowItems]
  cases first with
  | true =>
    simp only [comma, if_true, List.nil_append, Yaml.Reader.peek, Yaml.Reader.drop, List.tail_cons, Bool.not_true,
      Bool.false_and, Bool.false_eq_true, if_false]
    cases u with
    | scalar | flowSequenceStart | flowMappingStart => rfl
    | _ => exact Bool.noConfusion hu
  | false =>
    simp only [comma, List.cons_append, List.nil_append, Yaml.Reader.peek, Yaml.Reader.drop, List.tail_cons,
      Bool.false_eq_true, if_false]
    cases u with
    | scalar | flowSequenceStart | flowMappingStart => rfl
    | _ => exact Bool.noConfusion hu

/-- A name that is marked as a key, and its value. -/
theorem readFlowEntries_member (first : Bool) (count : Nat) {text : String} {u : Token} (hu : opens u = true)
    (h : r.tokens = comma first ++ .key :: .scalar text false :: .value :: u :: ts) :
    readFlowEntries first (count + 2) r
      = (readNode false false (count + 1) (past r (u :: ts) [scalarVertex false text])).bind
          fun (value, r') => (readFlowEntries false (count + 1) r').bind
            fun (es, r'') => .ok ((r.graph.size, value) :: es, r'') := by
  obtain ⟨tokens, failure, names, handles, graph⟩ := r
  obtain rfl : tokens = _ := h
  have hkey : readNode false false (count + 1)
        ⟨.scalar text false :: .value :: u :: ts, failure, names, handles, graph⟩
      = .ok (graph.size, ⟨.value :: u :: ts, failure, names, handles, graph ++ #[scalarVertex false text]⟩) :=
    readNode_scalar count rfl
  rw [readFlowEntries]
  cases first with
  | true =>
    simp only [comma, if_true, List.nil_append, Yaml.Reader.peek, Yaml.Reader.drop, List.tail_cons, Bool.not_true,
      Bool.false_and, Bool.false_eq_true, if_false, hkey]
    cases u with
    | scalar | flowSequenceStart | flowMappingStart => rfl
    | _ => exact Bool.noConfusion hu
  | false =>
    simp only [comma, List.cons_append, List.nil_append, Yaml.Reader.peek, Yaml.Reader.drop, List.tail_cons,
      Bool.false_eq_true, if_false, hkey]
    cases u with
    | scalar | flowSequenceStart | flowMappingStart => rfl
    | _ => exact Bool.noConfusion hu

/-- A name that is not marked as a key cannot have a value. -/
theorem readFlowEntries_unmarked (first : Bool) (count : Nat) {text : String}
    (h : r.tokens = comma first ++ .scalar text false :: .value :: ts) :
    readFlowEntries first (count + 2) r = .error .yaml := by
  obtain ⟨tokens, failure, names, handles, graph⟩ := r
  obtain rfl : tokens = _ := h
  have hkey : readNode false false (count + 1)
        ⟨.scalar text false :: .value :: ts, failure, names, handles, graph⟩
      = .ok (graph.size, ⟨.value :: ts, failure, names, handles, graph ++ #[scalarVertex false text]⟩) :=
    readNode_scalar count rfl
  have hcolon (g : Graph) : readFlowEntries false (count + 1) ⟨.value :: ts, failure, names, handles, g⟩
      = .error .yaml := by
    rw [readFlowEntries]
    rfl
  rw [readFlowEntries]
  cases first with
  | true =>
    simp only [comma, if_true, List.nil_append, Yaml.Reader.peek, Yaml.Reader.drop, List.tail_cons, Bool.not_true,
      Bool.false_and, Bool.false_eq_true, if_false, hkey, bind, Except.bind, Yaml.Reader.fresh, hcolon]
  | false =>
    simp only [comma, List.cons_append, List.nil_append, Yaml.Reader.peek, Yaml.Reader.drop, List.tail_cons,
      Bool.false_eq_true, if_false, hkey, bind, Except.bind, Yaml.Reader.fresh, hcolon]
    rfl

end Parser

/-! ### Trees -/

theorem length_tokens_pos (t : Node) : 0 < t.tokens.length := by
  obtain ⟨u, us, htokens, -⟩ := t.exists_token
  rw [htokens]
  exact Nat.succ_pos _

theorem length_tokens_gt (members : Members) : 1 < members.tokens.length := by
  have hname (name : Body) (behind : Blanks) : 1 < (Lexer.nameTokens name behind).length := by
    rw [Lexer.nameTokens]
    split <;> simp
  cases members with
  | last before name behind =>
    have := hname name behind
    simp only [Members.tokens, List.length_append]
    omega
  | more before name behind =>
    have := hname name behind
    simp only [Members.tokens, List.length_append]
    omega

/-- A name with its value: it is read as a member when it has been marked as a key, and not at all otherwise. -/
theorem readFlowEntries_named {r : Yaml.Reader} {ts : List Token} (first : Bool) (count : Nat) {name : Body}
    {behind : Blanks} {item : Node} {ok : Bool} {a : List (Nat × Nat) × Yaml.Reader}
    (h : r.tokens = comma first ++ (Lexer.nameTokens name behind ++ (item.tokens ++ ts)))
    (hread : Outcome ((readNode false false (count + 1)
        (past r (item.tokens ++ ts) [scalarVertex false name.reread])).bind
      fun (value, r') => (readFlowEntries false (count + 1) r').bind
        fun (es, r'') => .ok ((r.graph.size, value) :: es, r'')) ok a) :
    Outcome (readFlowEntries first (count + 2) r) (isNear name behind && ok) a := by
  cases hnear : isNear name behind with
  | false =>
    have h' : r.tokens = comma first ++ .scalar name.reread false :: .value :: (item.tokens ++ ts) := by
      rw [h]
      simp [Lexer.nameTokens, hnear]
    exact ⟨_, readFlowEntries_unmarked first count h'⟩
  | true =>
    obtain ⟨u, us, htokens, hu⟩ := item.exists_token
    have h' : r.tokens = comma first ++ .key :: .scalar name.reread false :: .value :: u :: (us ++ ts) := by
      rw [h]
      simp [Lexer.nameTokens, hnear, htokens]
    rw [Bool.true_and, readFlowEntries_member first count hu h']
    rw [htokens] at hread
    exact hread

mutual

/-- The parser reads a value from its tokens. -/
theorem readNode_node : (t : Node) → (block indentless : Bool) → (count : Nat) → (r : Yaml.Reader) →
    (ts : List Token) → t.tokens.length ≤ count → r.tokens = t.tokens ++ ts →
    Outcome (readNode block indentless count r) (t.all .keyed)
      (r.graph.size, past r ts (t.vertices r.graph.size))
  | .word w, _, _, 0, _, _, hcount, _ | .number n, _, _, 0, _, _, hcount, _
  | .text b, _, _, 0, _, _, hcount, _ | .emptyList _, _, _, 0, _, _, hcount, _
  | .list _, _, _, 0, _, _, hcount, _ | .emptyObject _, _, _, 0, _, _, hcount, _
  | .object _, _, _, 0, _, _, hcount, _ => absurd hcount (Nat.not_succ_le_zero _)
  | .word w, _, _, count + 1, r, ts, _, h => readNode_scalar count h
  | .number n, _, _, count + 1, r, ts, _, h => readNode_scalar count h
  | .text b, _, _, count + 1, r, ts, _, h => readNode_scalar count h
  | .emptyList inside, _, _, count + 1, r, ts, hcount, h => by
    obtain ⟨c, rfl⟩ : ∃ c, count = c + 1 := ⟨count - 1, by simp [Node.tokens] at hcount; omega⟩
    have h' : r.tokens = .flowSequenceStart :: .flowSequenceEnd :: ts := h
    show readNode _ _ _ r = _
    rw [readNode_list _ h', readFlowItems_end ts true c rfl, past_past]
    exact congrArg (fun r' => Except.ok (r.graph.size, r')) (past_fill [] _ _ rfl)
  | .list items, _, _, count + 1, r, ts, hcount, h => by
    have h' : r.tokens = .flowSequenceStart :: (items.tokens ++ .flowSequenceEnd :: ts) := by
      rw [h]
      simp [Node.tokens]
    have hcount' : items.tokens.length < count := by
      simp only [Node.tokens, List.length_cons, List.length_append] at hcount
      omega
    have hitems := readFlowItems_items items true count
      (past r (items.tokens ++ .flowSequenceEnd :: ts) [Graph.blank]) ts hcount' rfl
    rw [past_past, past_size, List.length_singleton] at hitems
    rw [readNode_list count h']
    exact hitems.then (congrArg (fun r' => Except.ok (r.graph.size, r')) (past_fill _ _ _ rfl))
  | .emptyObject inside, _, _, count + 1, r, ts, hcount, h => by
    obtain ⟨c, rfl⟩ : ∃ c, count = c + 1 := ⟨count - 1, by simp [Node.tokens] at hcount; omega⟩
    have h' : r.tokens = .flowMappingStart :: .flowMappingEnd :: ts := h
    show readNode _ _ _ r = _
    rw [readNode_object _ h', readFlowEntries_end ts true c rfl, past_past]
    exact congrArg (fun r' => Except.ok (r.graph.size, r')) (past_fill [] _ _ rfl)
  | .object members, _, _, count + 1, r, ts, hcount, h => by
    have h' : r.tokens = .flowMappingStart :: (members.tokens ++ .flowMappingEnd :: ts) := by
      rw [h]
      simp [Node.tokens]
    have hcount' : members.tokens.length < count := by
      simp only [Node.tokens, List.length_cons, List.length_append] at hcount
      omega
    have hmembers := readFlowEntries_members members true count
      (past r (members.tokens ++ .flowMappingEnd :: ts) [Graph.blank]) ts hcount' rfl
    rw [past_past, past_size, List.length_singleton] at hmembers
    rw [readNode_object count h']
    exact hmembers.then (congrArg (fun r' => Except.ok (r.graph.size, r')) (past_fill _ _ _ rfl))

/-- The parser reads items from their tokens. -/
theorem readFlowItems_items : (items : Items) → (first : Bool) → (count : Nat) → (r : Yaml.Reader) →
    (ts : List Token) → items.tokens.length < count →
    r.tokens = comma first ++ (items.tokens ++ .flowSequenceEnd :: ts) →
    Outcome (readFlowItems first count r) (items.all .keyed)
      (items.roots r.graph.size, past r ts (items.vertices r.graph.size))
  | _, _, 0, _, _, hcount, _ => absurd hcount (Nat.not_lt_zero _)
  | .last before item after, first, count + 1, r, ts, hcount, h => by
    have hlength : item.tokens.length ≤ count := Nat.le_of_lt_succ hcount
    obtain ⟨c, rfl⟩ : ∃ c, count = c + 1 := ⟨count - 1, by have := length_tokens_pos item; omega⟩
    have hitem := readNode_node item false false (c + 1)
      { r with tokens := item.tokens ++ .flowSequenceEnd :: ts } (.flowSequenceEnd :: ts) hlength rfl
    obtain ⟨u, us, htokens, hu⟩ := item.exists_token
    have h' : r.tokens = comma first ++ u :: (us ++ .flowSequenceEnd :: ts) := by
      rw [h]
      simp [Items.tokens, htokens]
    rw [htokens] at hitem
    rw [readFlowItems_item first (c + 1) hu h',
      show Items.all .keyed (.last before item after) = item.all .keyed by simp [Items.all, Checks.keyed]]
    refine hitem.then ?_
    show ((readFlowItems false (c + 1) (past r (.flowSequenceEnd :: ts) _)).bind _) = _
    rw [readFlowItems_end ts false c rfl, past_past, List.append_nil]
    rfl
  | .more before item after rest, first, count + 1, r, ts, hcount, h => by
    have hlength : item.tokens.length ≤ count ∧ rest.tokens.length < count := by
      simp only [Items.tokens, List.length_append, List.length_cons] at hcount
      have := length_tokens_pos item
      omega
    have hitem := readNode_node item false false count
      { r with tokens := item.tokens ++ .flowEntry :: (rest.tokens ++ .flowSequenceEnd :: ts) }
      (.flowEntry :: (rest.tokens ++ .flowSequenceEnd :: ts)) hlength.1 rfl
    have hrest := readFlowItems_items rest false count
      (past r (.flowEntry :: (rest.tokens ++ .flowSequenceEnd :: ts)) (item.vertices r.graph.size)) ts
      hlength.2 rfl
    rw [past_past, past_size, Node.length_vertices] at hrest
    obtain ⟨u, us, htokens, hu⟩ := item.exists_token
    have h' : r.tokens = comma first ++ u :: (us ++ .flowEntry :: (rest.tokens ++ .flowSequenceEnd :: ts)) := by
      rw [h]
      simp [Items.tokens, htokens]
    rw [htokens] at hitem
    rw [readFlowItems_item first count hu h',
      show Items.all .keyed (.more before item after rest) = (item.all .keyed && rest.all .keyed) by
        simp [Items.all, Checks.keyed]]
    exact hitem.bind (hrest.then rfl)

/-- The parser reads members from their tokens, when their names are marked as keys. -/
theorem readFlowEntries_members : (members : Members) → (first : Bool) → (count : Nat) → (r : Yaml.Reader) →
    (ts : List Token) → members.tokens.length < count →
    r.tokens = comma first ++ (members.tokens ++ .flowMappingEnd :: ts) →
    Outcome (readFlowEntries first count r) (members.all .keyed)
      (members.roots r.graph.size, past r ts (members.vertices r.graph.size))
  | _, _, 0, _, _, hcount, _ => absurd hcount (Nat.not_lt_zero _)
  | members, _, 1, _, _, hcount, _ => absurd hcount (by have := length_tokens_gt members; omega)
  | .last before name behind ahead item after, first, count + 2, r, ts, hcount, h => by
    have h' : r.tokens = comma first
        ++ (Lexer.nameTokens name behind ++ (item.tokens ++ .flowMappingEnd :: ts)) := by
      rw [h]
      simp [Members.tokens]
    have hlength : item.tokens.length ≤ count + 1 := by
      simp only [Members.tokens, List.length_append] at hcount
      omega
    have hitem := readNode_node item false false (count + 1)
      (past r (item.tokens ++ .flowMappingEnd :: ts) [scalarVertex false name.reread])
      (.flowMappingEnd :: ts) hlength rfl
    rw [past_past, past_size] at hitem
    rw [show Members.all .keyed (.last before name behind ahead item after)
      = (isNear name behind && item.all .keyed) by simp [Members.all, Checks.keyed]]
    refine readFlowEntries_named first count h' (hitem.then ?_)
    show ((readFlowEntries false (count + 1) (past r (.flowMappingEnd :: ts) _)).bind _) = _
    rw [readFlowEntries_end ts false count rfl, past_past, List.append_nil]
    rfl
  | .more before name behind ahead item after rest, first, count + 2, r, ts, hcount, h => by
    have h' : r.tokens = comma first ++ (Lexer.nameTokens name behind
        ++ (item.tokens ++ .flowEntry :: (rest.tokens ++ .flowMappingEnd :: ts))) := by
      rw [h]
      simp [Members.tokens]
    have hlength : item.tokens.length ≤ count + 1 ∧ rest.tokens.length < count + 1 := by
      simp only [Members.tokens, List.length_append, List.length_cons] at hcount
      omega
    have hitem := readNode_node item false false (count + 1)
      (past r (item.tokens ++ .flowEntry :: (rest.tokens ++ .flowMappingEnd :: ts))
        [scalarVertex false name.reread])
      (.flowEntry :: (rest.tokens ++ .flowMappingEnd :: ts)) hlength.1 rfl
    rw [past_past, past_size] at hitem
    have hrest := readFlowEntries_members rest false (count + 1)
      (past r (.flowEntry :: (rest.tokens ++ .flowMappingEnd :: ts))
        (scalarVertex false name.reread :: item.vertices (r.graph.size + 1))) ts hlength.2 rfl
    rw [past_past, past_size, List.length_cons, Node.length_vertices] at hrest
    rw [show Members.all .keyed (.more before name behind ahead item after rest)
      = (isNear name behind && (item.all .keyed && rest.all .keyed)) by simp [Members.all, Checks.keyed]]
    exact readFlowEntries_named first count h' (hitem.bind (hrest.then rfl))

end

/-! ### Whole texts -/

/-- A document that begins with a brace has no directives. -/
theorem readDocument_object {r : Yaml.Reader} {ts : List Token} (h : r.tokens = .flowMappingStart :: ts) :
    readDocument r = (readNode true false (4 * r.tokens.length + 4) r).bind fun p => .ok (true, p.2) := by
  rw [readDocument, Yaml.Reader.peek, h]
  rfl

theorem checkEnd_end {r : Yaml.Reader} (h : r.tokens = [.streamEnd]) : checkEnd r = .ok () := by
  rw [checkEnd, h]
  rfl

theorem exists_tokens_object {s : Source} (h : s.isObject = true) :
    ∃ ts, s.node.tokens = .flowMappingStart :: ts := by
  obtain ⟨lead, node, trail⟩ := s
  cases node with
  | emptyObject | object => exact ⟨_, rfl⟩
  | word | number | text | emptyList | list => exact Bool.noConfusion h

/-- A JSON text has the nodes of its tree, when its leaves make up tokens and its names are keys, and is no
document otherwise. -/
theorem ofText_source (s : Source) (hobject : s.isObject = true) (hpairs : s.node.all .unpaired = true)
    (hclean : '\r' ∉ s.chars) :
    Outcome (Graph.ofText s.chars)
      ((s.chars.all isAdmitted && (s.lead.untabbed && s.trail.untabbed) && s.node.all .scanned)
        && s.node.all .keyed)
      (some (s.node.vertices 0).toArray) := by
  have hread := read_source s hobject hpairs hclean
  cases hscanned : s.chars.all isAdmitted && (s.lead.untabbed && s.trail.untabbed) && s.node.all .scanned with
  | false =>
    rw [hscanned] at hread
    obtain ⟨ts, f, htokens, hend⟩ := hread
    exact ofText_of_unfinished htokens hend
  | true =>
    rw [hscanned, if_pos rfl] at hread
    obtain ⟨us, hus⟩ := exists_tokens_object hobject
    let r : Yaml.Reader := ⟨s.node.tokens ++ [Token.streamEnd], .yaml, [], standardHandles, #[]⟩
    have hr : r.tokens = .flowMappingStart :: (us ++ [Token.streamEnd]) := by
      show s.node.tokens ++ _ = _
      rw [hus]
      rfl
    have hcount : s.node.tokens.length ≤ 4 * r.tokens.length + 4 := by
      show _ ≤ 4 * (s.node.tokens ++ [Token.streamEnd]).length + 4
      rw [List.length_append]
      omega
    have hnode := readNode_node s.node true false _ r [.streamEnd] hcount rfl
    have hdocument : Outcome (readDocument r) (s.node.all .keyed) (true, past r [.streamEnd] (s.node.vertices 0)) := by
      rw [readDocument_object hr]
      exact hnode.then rfl
    have hof : Graph.ofText s.chars = (readDocument r).bind fun p => (checkEnd p.2).bind fun _ =>
        .ok (if p.1 then some p.2.graph else none) := by
      rw [Graph.ofText, hread]
      rfl
    rw [Bool.true_and, hof]
    refine hdocument.then ?_
    show (checkEnd (past r [.streamEnd] (s.node.vertices 0))).bind _ = _
    rw [checkEnd_end rfl]
    show Except.ok (some (#[] ++ (s.node.vertices 0).toArray)) = _
    rw [Array.empty_append]

end RouteDoc.Json
