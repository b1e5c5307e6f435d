import RouteDoc.Yaml.Graph.Grammar

/-!
# The parser makes up no tokens

Whatever the parser reads, the tokens behind it are among those in front of it.  So a text the tokens of which
do not come to the end of the text is no document.

* `Keeps` — what is left of the tokens was there before;
* `keeps_grammar` — the six mutual parsers keep to that;
* `ofText_of_unfinished` — a text that is not read to its end is no document.
-/

namespace RouteDoc.Yaml

/-- What is left after a step was there before. -/
def Keeps {α : Type} (r : Reader) (x : Read (α × Reader)) : Prop :=
  ∀ a r', x = .ok (a, r') → r'.tokens ⊆ r.tokens

section Keeping

variable {α β : Type} {r r' : Reader}

theorem Keeps.error {f : Failure} : Keeps (α := α) r (.error f) := fun _ _ h => by cases h

theorem Keeps.ok {a : α} (h : r'.tokens ⊆ r.tokens) : Keeps r (.ok (a, r')) := by
  intro b r'' heq
  cases heq
  exact h

theorem Keeps.bind {x : Read (α × Reader)} {f : α × Reader → Read (β × Reader)} (hx : Keeps r x)
    (hf : ∀ p : α × Reader, p.2.tokens ⊆ r.tokens → Keeps r (f p)) : Keeps r (x >>= f) := by
  intro b r'' heq
  cases x with
  | error e => cases heq
  | ok p => exact hf p (hx p.1 p.2 rfl) b r'' heq

theorem Keeps.bind_read {x : Read α} {f : α → Read (β × Reader)} (hf : ∀ a, Keeps r (f a)) :
    Keeps r (x >>= f) := by
  intro b r'' heq
  cases x with
  | error e => cases heq
  | ok a => exact hf a b r'' heq

theorem Keeps.of_subset {x : Read (α × Reader)} (hx : Keeps r' x) (h : r'.tokens ⊆ r.tokens) : Keeps r x :=
  fun a r'' heq => List.Subset.trans (hx a r'' heq) h

theorem drop_subset (r : Reader) : r.drop.tokens ⊆ r.tokens := List.tail_sublist r.tokens |>.subset

/-- The tokens behind a comma, which need not be there in front of the first part. -/
theorem comma_subset (first : Bool) (r : Reader) : (if first = true then r else r.drop).tokens ⊆ r.tokens := by
  split
  · exact List.Subset.refl _
  · exact drop_subset r

theorem Keeps.stop : Keeps (α := α) r r.stop := by
  rw [Reader.stop]
  split
  · exact .error
  · exact .error

/-- A value that is left out. -/
theorem Keeps.fresh (h : r'.tokens ⊆ r.tokens) : Keeps r (.ok r'.fresh) := .ok h

theorem Keeps.readProperties (r : Reader) : Keeps r (readProperties r) := by
  have hdrop := drop_subset r
  have hagain := List.Subset.trans (drop_subset r.drop) hdrop
  rw [Yaml.readProperties]
  refine .bind_read fun t => ?_
  split
  · refine .bind_read fun u => ?_
    split
    · exact .ok hagain
    · exact .ok hdrop
  · refine .bind_read fun u => ?_
    split
    · exact .ok hagain
    · exact .ok hdrop
  · exact .ok (List.Subset.refl _)

theorem name_tokens (anchor : Option String) (n : Nat) (r : Reader) : (r.name anchor n).tokens = r.tokens := by
  cases anchor <;> rfl

end Keeping

/-- The six parsers keep to the tokens, with a count. -/
structure ParsersKeep (count : Nat) : Prop where
  node : ∀ block indentless r, Keeps r (readNode block indentless count r)
  blockItems : ∀ r, Keeps r (readBlockItems count r)
  indentlessItems : ∀ r, Keeps r (readIndentlessItems count r)
  blockEntries : ∀ r, Keeps r (readBlockEntries count r)
  flowItems : ∀ first r, Keeps r (readFlowItems first count r)
  flowEntries : ∀ first r, Keeps r (readFlowEntries first count r)

/-- The parts of a collection, in front of a node that is filled in. -/
theorem keeps_collection {γ : Type} {r r' : Reader} {x : Read (γ × Reader)} (hx : Keeps r' x)
    (h : r'.tokens ⊆ r.tokens) (n : Nat) (tag : Tag) (content : γ → Content) :
    Keeps r (do
      let p ← x
      .ok (n, p.2.fill n tag (content p.1))) :=
  (hx.of_subset h).bind fun _ hp => .ok hp

section Steps

variable {count : Nat} (ih : ParsersKeep count)

include ih

theorem keeps_node (block indentless : Bool) (r : Reader) : Keeps r (readNode block indentless (count + 1) r) := by
  rw [readNode.eq_def]
  simp only
  split
  · split
    · exact .ok (drop_subset r)
    · exact .error
  · refine (Keeps.readProperties r).bind fun p hp => ?_
    refine .bind_read fun tag => .bind_read fun next => ?_
    split
    · exact .error
    · have hinner : (p.2.fresh.2.name p.1.anchor p.2.fresh.1).tokens ⊆ r.tokens := by
        rw [name_tokens]
        exact hp
      have hdrop := List.Subset.trans (drop_subset _) hinner
      have hblank : Keeps r (if (p.1.anchor.isSome || tag.isSome) = true then
          .ok (p.2.fresh.1, (p.2.fresh.2.name p.1.anchor p.2.fresh.1).fill p.2.fresh.1
            (scalarTag tag.isNone "" tag) (.scalar ""))
          else malformed) := by
        split
        · exact .ok hinner
        · exact .error
      split
      · split
        · exact keeps_collection (ih.indentlessItems _) hinner _ _ _
        · exact hblank
      · exact .ok hdrop
      · exact keeps_collection (ih.flowItems _ _) hdrop _ _ _
      · exact keeps_collection (ih.flowEntries _ _) hdrop _ _ _
      · split
        · exact keeps_collection (ih.blockItems _) hdrop _ _ _
        · exact hblank
      · split
        · exact keeps_collection (ih.blockEntries _) hdrop _ _ _
        · exact hblank
      · exact hblank

theorem keeps_blockItems (r : Reader) : Keeps r (readBlockItems (count + 1) r) := by
  have hdrop := drop_subset r
  rw [readBlockItems]
  refine .bind_read fun t => ?_
  split
  · simp only
    refine .bind_read fun u => ?_
    split
    case h_3 =>
      exact ((ih.node _ _ _).of_subset hdrop).bind fun p hp =>
        ((ih.blockItems _).of_subset hp).bind fun _ hq => .ok hq
    all_goals exact (Keeps.fresh hdrop).bind fun p hp => ((ih.blockItems _).of_subset hp).bind fun _ hq => .ok hq
  · exact .ok hdrop
  · exact .error

theorem keeps_indentlessItems (r : Reader) : Keeps r (readIndentlessItems (count + 1) r) := by
  have hdrop := drop_subset r
  rw [readIndentlessItems]
  refine .bind_read fun t => ?_
  split
  · simp only
    refine .bind_read fun u => ?_
    split
    case h_5 =>
      exact ((ih.node _ _ _).of_subset hdrop).bind fun p hp =>
        ((ih.indentlessItems _).of_subset hp).bind fun _ hq => .ok hq
    all_goals
      exact (Keeps.fresh hdrop).bind fun p hp => ((ih.indentlessItems _).of_subset hp).bind fun _ hq => .ok hq
  · exact .ok (List.Subset.refl _)

theorem keeps_blockEntries (r : Reader) : Keeps r (readBlockEntries (count + 1) r) := by
  have hdrop := drop_subset r
  rw [readBlockEntries]
  refine .bind_read fun t => ?_
  split
  · simp only
    refine .bind_read fun u => ?_
    split
    case' h_4 => refine ((ih.node _ _ _).of_subset hdrop).bind ?_
    case' h_1 | h_2 | h_3 => refine (Keeps.fresh hdrop).bind ?_
    -- the value behind a key, however the key has been read
    all_goals
      intro key hkey
      have hdrop' := List.Subset.trans (drop_subset key.2) hkey
      refine .bind_read fun v => ?_
      split
      · refine .bind_read fun w => ?_
        split
        case h_4 =>
          exact ((ih.node _ _ _).of_subset hdrop').bind fun _ hp =>
            ((ih.blockEntries _).of_subset hp).bind fun _ hq => .ok hq
        all_goals
          exact (Keeps.fresh hdrop').bind fun _ hp => ((ih.blockEntries _).of_subset hp).bind fun _ hq => .ok hq
      · exact (Keeps.fresh hkey).bind fun _ hp => ((ih.blockEntries _).of_subset hp).bind fun _ hq => .ok hq
  · exact .ok hdrop
  · exact .error

theorem keeps_flowItems (first : Bool) (r : Reader) : Keeps r (readFlowItems first (count + 1) r) := by
  have hcomma := comma_subset first r
  have hdrop := List.Subset.trans (drop_subset _) hcomma
  have hfresh : (if first = true then r else r.drop).drop.fresh.2.tokens ⊆ r.tokens := hdrop
  rw [readFlowItems]
  refine .bind_read fun t => ?_
  split
  · exact .ok (drop_subset r)
  · split
    · exact .error
    · simp only
      refine .bind_read fun u => ?_
      split
      · exact .ok hdrop
      · refine .bind_read fun w => ?_
        split
        case' h_4 => refine ((ih.node _ _ _).of_subset hfresh).bind ?_
        case' h_1 | h_2 | h_3 => refine (Keeps.fresh hfresh).bind ?_
        all_goals
          intro key hkey
          have hdrop' := List.Subset.trans (drop_subset key.2) hkey
          refine .bind_read fun v => ?_
          split
          · refine .bind_read fun w => ?_
            split
            case h_3 =>
              exact ((ih.node _ _ _).of_subset hdrop').bind fun _ hp =>
                ((ih.flowItems _ _).of_subset hp).bind fun _ hq => .ok hq
            all_goals
              exact (Keeps.fresh hdrop').bind fun _ hp => ((ih.flowItems _ _).of_subset hp).bind fun _ hq => .ok hq
          · exact (Keeps.fresh hkey).bind fun _ hp => ((ih.flowItems _ _).of_subset hp).bind fun _ hq => .ok hq
      · exact ((ih.node _ _ _).of_subset hcomma).bind fun _ hp =>
          ((ih.flowItems _ _).of_subset hp).bind fun _ hq => .ok hq

theorem keeps_flowEntries (first : Bool) (r : Reader) : Keeps r (readFlowEntries first (count + 1) r) := by
  have hcomma := comma_subset first r
  have hdrop := List.Subset.trans (drop_subset _) hcomma
  rw [readFlowEntries]
  refine .bind_read fun t => ?_
  split
  · exact .ok (drop_subset r)
  · split
    · exact .error
    · simp only
      refine .bind_read fun u => ?_
      split
      · exact .ok hdrop
      · refine .bind_read fun w => ?_
        split
        case' h_4 => refine ((ih.node _ _ _).of_subset hdrop).bind ?_
        case' h_1 | h_2 | h_3 => refine (Keeps.fresh hdrop).bind ?_
        all_goals
          intro key hkey
          have hdrop' := List.Subset.trans (drop_subset key.2) hkey
          refine .bind_read fun v => ?_
          split
          · refine .bind_read fun w => ?_
            split
            case h_3 =>
              exact ((ih.node _ _ _).of_subset hdrop').bind fun _ hp =>
                ((ih.flowEntries _ _).of_subset hp).bind fun _ hq => .ok hq
            all_goals
              exact (Keeps.fresh hdrop').bind fun _ hp =>
                ((ih.flowEntries _ _).of_subset hp).bind fun _ hq => .ok hq
          · exact (Keeps.fresh hkey).bind fun _ hp => ((ih.flowEntries _ _).of_subset hp).bind fun _ hq => .ok hq
      · refine ((ih.node _ _ _).of_subset hcomma).bind fun key hkey => ?_
        have hfresh : key.2.fresh.2.tokens ⊆ r.tokens := hkey
        exact ((ih.flowEntries _ _).of_subset hfresh).bind fun _ hq => .ok hq

end Steps

theorem keeps_grammar (count : Nat) : ParsersKeep count := by
  induction count with
  | zero =>
    constructor <;> intros
    · rw [readNode]; exact .stop
    · rw [readBlockItems]; exact .stop
    · rw [readIndentlessItems]; exact .stop
    · rw [readBlockEntries]; exact .stop
    · rw [readFlowItems]; exact .stop
    · rw [readFlowEntries]; exact .stop
  | succ count ih =>
    exact ⟨keeps_node ih, keeps_blockItems ih, keeps_indentlessItems ih, keeps_blockEntries ih,
      keeps_flowItems ih, keeps_flowEntries ih⟩

/-! ### Whole texts -/

theorem readDirectives_subset (ts : List Token) (versioned : Bool) (handles : List (String × String))
    {handles' : List (String × String)} {rest : List Token}
    (h : readDirectives versioned handles ts = .ok (handles', rest)) : rest ⊆ ts := by
  induction ts generalizing versioned handles with
  | nil =>
    cases h
    exact List.Subset.refl _
  | cons t ts ih =>
    have hcons := List.subset_cons_self t ts
    cases t with
    | directive d =>
      cases d with
      | version major =>
        rw [readDirectives] at h
        split at h
        · cases h
        · exact List.Subset.trans (ih _ _ h) hcons
      | tag handle expansion =>
        rw [readDirectives] at h
        split at h
        · cases h
        · exact List.Subset.trans (ih _ _ h) hcons
      | other =>
        rw [readDirectives] at h
        exact List.Subset.trans (ih _ _ h) hcons
    | _ =>
      cases h
      exact List.Subset.refl _

theorem keeps_documentNode (count : Nat) (h : r'.tokens ⊆ r.tokens) :
    Keeps r (do let p ← readNode true false count r'; .ok (true, p.2)) :=
  (((keeps_grammar count).node true false r').of_subset h).bind fun _ hp => .ok hp

/-- Reads a document behind the mark of its beginning, where an empty document counts as well. -/
def readMarked (count : Nat) (r : Reader) : Read (Bool × Reader) := do
  match ← r.peek with
  | .documentStart =>
    let (_, r') ← match ← r.drop.peek with
      | .directive _ | .documentStart | .documentEnd | .streamEnd => .ok r.drop.fresh
      | _ => readNode true false count r.drop
    .ok (true, r')
  | _ => malformed

theorem keeps_marked (count : Nat) (h : r'.tokens ⊆ r.tokens) : Keeps r (readMarked count r') := by
  have hdrop := List.Subset.trans (drop_subset r') h
  rw [readMarked]
  refine .bind_read fun u => ?_
  split
  · refine .bind_read fun v => ?_
    split
    case h_5 => exact keeps_documentNode _ hdrop
    all_goals exact (Keeps.fresh hdrop).bind fun _ hp => .ok hp
  · exact .error

theorem keeps_document (r : Reader) : Keeps r (readDocument r) := by
  rw [readDocument]
  simp only
  refine .bind_read fun t => ?_
  split
  · exact .ok (List.Subset.refl _)
  case h_4 => exact keeps_documentNode _ (List.Subset.refl _)
  all_goals
    intro found r' h
    cases hdirectives : readDirectives false [] r.tokens with
    | error f =>
      rw [hdirectives] at h
      cases h
    | ok p =>
      rw [hdirectives] at h
      have hrest : ({ r with handles := p.1, tokens := p.2 } : Reader).tokens ⊆ r.tokens :=
        readDirectives_subset r.tokens false [] hdirectives
      exact keeps_marked _ hrest found r' h

/-- What is checked at a token behind a document. -/
theorem checkEnd_cons {u : Token} {us : List Token} (h : r.tokens.dropWhile (· == Token.documentEnd) = u :: us) :
    checkEnd r = match u with
      | .streamEnd => .ok ()
      | _ => (readDirectives false [] (u :: us)).bind fun p =>
        ({ r with tokens := p.2 } : Reader).peek.bind fun _ => malformed := by
  simp only [checkEnd, h]
  cases u <;> rfl

/-- A text whose tokens do not come to its end is no document. -/
theorem ofText_of_unfinished {text : List Char} {ts : List Token} {f : Option Failure}
    (h : Lexer.read text = (ts, f)) (hend : Token.streamEnd ∉ ts) : ∃ f, Graph.ofText text = .error f := by
  rw [Graph.ofText, h]
  simp only
  generalize hr : Reader.mk ts _ _ _ _ = r
  cases hdocument : readDocument r with
  | error f => exact ⟨f, rfl⟩
  | ok p =>
    obtain ⟨found, r'⟩ := p
    have hsubset : r'.tokens ⊆ ts := by
      have := keeps_document r found r' hdocument
      rwa [← hr] at this
    have hcheck : ∃ f, checkEnd r' = .error f := by
      have hrest : r'.tokens.dropWhile (· == Token.documentEnd) ⊆ ts :=
        List.Subset.trans (List.dropWhile_sublist _).subset hsubset
      cases hrestOf : r'.tokens.dropWhile (· == Token.documentEnd) with
      | nil =>
        simp only [checkEnd, hrestOf]
        exact ⟨r'.failure, rfl⟩
      | cons u us =>
        have hu : u ≠ .streamEnd := by
          rintro rfl
          exact hend (hrest (hrestOf ▸ List.mem_cons_self ..))
        rw [checkEnd_cons hrestOf]
        split
        · exact absurd rfl hu
        · cases readDirectives false [] (u :: us) with
          | error f => exact ⟨f, rfl⟩
          | ok p =>
            show ∃ f, ({ r' with tokens := p.2 } : Reader).peek.bind _ = .error f
            cases ({ r' with tokens := p.2 } : Reader).peek with
            | error f => exact ⟨f, rfl⟩
            | ok _ => exact ⟨.yaml, rfl⟩
    obtain ⟨f, hf⟩ := hcheck
    exact ⟨f, by show (checkEnd r').bind _ = _; rw [hf]; rfl⟩

end RouteDoc.Yaml
