import RouteDoc.Yaml.Meaning

/-!
# Reading a graph level by level

What the parts of a graph are after it has been read, for graphs without merging, sets and lists of pairs: every
node that is reached from the first one is a scalar with the value of its text, or a collection of nodes that are
reached as well.  The reading comes to an end because every collection in the queue was a node without a part
before.

* `Reading.Sound` — the invariant, with the collections whose turn is still to come;
* `Reading.unvisited` — what the levels use up;
* `Reading.run_closed` — what the parts are;
* `Reading.exists_run` — that there are parts, when all scalars have values.
-/

namespace RouteDoc.Yaml

/-! ### Graphs without merging -/

/-- The tags that a graph need not have for merging, default values, sets and pairs. -/
def isRare : Tag → Bool
  | .merge | .value | .set | .omap | .pairs => true
  | _ => false

/-- A graph without merging, default values, sets and pairs. -/
def Graph.Unmerged (g : Graph) : Prop := ∀ n, isRare (g.tag n) = false

namespace Graph

variable {g : Graph}

theorem takeMerge_eq (hg : g.Unmerged) (es : List (Nat × Nat)) : g.takeMerge es = none := by
  induction es with
  | nil => rfl
  | cons e es ih =>
    have hmerge : (g.tag e.1 == .merge) = false := by
      rw [beq_eq_false_iff_ne]
      intro h
      have hrare := hg e.1
      rw [h] at hrare
      exact Bool.noConfusion hrare
    rw [takeMerge, hmerge, ih]
    rfl

theorem plainKey_eq (hg : g.Unmerged) (n : Nat) : g.plainKey n = g := by
  have hvalue : (g.tag n == .value) = false := by
    rw [beq_eq_false_iff_ne]
    intro h
    have hrare := hg n
    rw [h] at hrare
    exact Bool.noConfusion hrare
  rw [plainKey, hvalue, if_neg Bool.false_ne_true]

theorem flatten_eq (hg : g.Unmerged) (bound n : Nat) : g.flatten bound n = .ok g := by
  rw [flatten]
  cases bound with
  | zero => rw [flattenWith]
  | succ bound =>
    rw [flattenWith, takeMerge_eq hg]
    simp only
    generalize g.entries n = es
    have hkeys : es.foldl (fun g e => g.plainKey e.1) g = g := by
      induction es with
      | nil => rfl
      | cons e es ih =>
        show es.foldl _ (g.plainKey e.1) = g
        rw [plainKey_eq hg]
        exact ih
    exact congrArg Except.ok hkeys

end Graph

namespace Reading

/-! ### The invariant -/

/-- A node of the graph has a part. -/
def Known (r : Reading) (n : Nat) : Prop := n < r.parts.size → (r.part? n).isSome = true

/-- What a part says about its node; the collections whose turn is to come are in the queue or pending. -/
def Explains (g : Graph) (r : Reading) (pending : List Nat) (n : Nat) : Part → Prop
  | .scalar s => isComposite (g.tag n) = false ∧ scalarOf g n = .ok s
  | .waiting => isComposite (g.tag n) = true ∧ (n ∈ r.queue ∨ n ∈ pending)
  | .list items => g.tag n = .seq ∧ (g.vertex n).content = .sequence items ∧ ∀ i ∈ items, r.Known i
  | .map es => g.tag n = .map ∧ (g.vertex n).content = .mapping es ∧ ∀ e ∈ es, r.Known e.1 ∧ r.Known e.2
  | .pairs _ | .set _ => False

/-- The invariant of reading a graph. -/
structure Sound (g : Graph) (pending : List Nat) (r : Reading) : Prop where
  graph : r.graph = g
  size : r.parts.size = g.size
  parts : ∀ n p, r.part? n = some p → Explains g r pending n p
  turns : ∀ n, n ∈ r.queue ∨ n ∈ pending → isComposite (g.tag n) = true

/-- The number of nodes without a part. -/
def unvisited (r : Reading) : Nat := r.parts.toList.countP Option.isNone

/-- What every step does to the parts: it loses none of them, and what it puts into the queue had none. -/
structure Grows (r r' : Reading) : Prop where
  size : r'.parts.size = r.parts.size
  known : ∀ n, r.Known n → r'.Known n
  cost : r'.queue.length + r'.unvisited ≤ r.queue.length + r.unvisited

variable {g : Graph} {pending : List Nat} {r r' r'' : Reading} {n : Nat} {p : Part}

theorem Grows.refl (r : Reading) : Grows r r := ⟨rfl, fun _ h => h, Nat.le_refl _⟩

theorem Grows.trans (h : Grows r r') (h' : Grows r' r'') : Grows r r'' :=
  ⟨h'.size.trans h.size, fun n hn => h'.known n (h.known n hn), Nat.le_trans h'.cost h.cost⟩

theorem part?_note (r : Reading) (n : Nat) (p : Part) (m : Nat) :
    (r.note n p).part? m = if m = n ∧ n < r.parts.size then some p else r.part? m := by
  rw [part?, note, Array.getD_eq_getD_getElem?, Array.getElem?_setIfInBounds, part?, Array.getD_eq_getD_getElem?]
  by_cases hm : n = m
  · subst hm
    by_cases hn : n < r.parts.size
    · rw [if_pos rfl, if_pos hn, if_pos ⟨rfl, hn⟩]
      rfl
    · rw [if_pos rfl, if_neg hn, if_neg (fun h => hn h.2), Array.getElem?_eq_none (Nat.not_lt.1 hn)]
  · rw [if_neg hm, if_neg (fun h => hm h.1.symm)]

theorem part?_lt (h : r.part? n = some p) : n < r.parts.size := by
  refine Nat.lt_of_not_le fun hn => ?_
  rw [part?, Array.getD_eq_getD_getElem?, Array.getElem?_eq_none hn] at h
  cases h

/-- A state with another queue, after a note. -/
def noted (q : List Nat) (n : Nat) (p : Part) (r : Reading) : Reading := { r with queue := q }.note n p

section Noted

variable {q : List Nat}

@[simp] theorem noted_queue : (noted q n p r).queue = q := rfl

@[simp] theorem noted_size : (noted q n p r).parts.size = r.parts.size := Array.size_setIfInBounds ..

theorem part?_noted (m : Nat) :
    (noted q n p r).part? m = if m = n ∧ n < r.parts.size then some p else r.part? m :=
  part?_note { r with queue := q } n p m

theorem known_noted {m : Nat} (h : r.Known m) : (noted q n p r).Known m := by
  intro hm
  rw [noted_size] at hm
  rw [part?_noted]
  split
  · rfl
  · exact h hm

theorem known_noted_self : (noted q n p r).Known n := by
  intro hn
  rw [noted_size] at hn
  rw [part?_noted, if_pos ⟨rfl, hn⟩]
  rfl

end Noted

theorem unvisited_note_lt (hn : n < r.parts.size) (hpart : r.part? n = none) :
    (r.note n p).unvisited + 1 = r.unvisited := by
  have hn' : n < r.parts.toList.length := by rwa [Array.length_toList]
  have hnone : r.parts.toList[n].isNone = true := by
    rw [part?, Array.getD_eq_getD_getElem?, Array.getElem?_eq_getElem hn] at hpart
    rw [Array.getElem_toList, show r.parts[n] = none from hpart]
    rfl
  have hpos : 0 < r.parts.toList.countP Option.isNone :=
    List.countP_pos_iff.2 ⟨_, List.getElem_mem hn', hnone⟩
  rw [unvisited, note, Array.toList_setIfInBounds, List.countP_set hn', if_pos hnone, if_neg (by simp), unvisited]
  omega

theorem unvisited_note_le (r : Reading) (n : Nat) (p : Part) : (r.note n p).unvisited ≤ r.unvisited := by
  rw [unvisited, note, Array.toList_setIfInBounds, unvisited]
  by_cases hn : n < r.parts.toList.length
  · rw [List.countP_set hn, if_neg (show ¬ (some p).isNone = true by simp)]
    omega
  · exact Nat.le_of_eq (by rw [List.set_eq_of_length_le (Nat.not_lt.1 hn)])

/-- A note on a node keeps what the other parts say. -/
theorem Sound.noted {q : List Nat} {pending' : List Nat} (h : Sound g pending r)
    (hqueue : ∀ m ∈ r.queue, m ∈ q) (hpending : ∀ m ∈ pending, m = n ∨ m ∈ pending')
    (hturns : ∀ m, m ∈ q ∨ m ∈ pending' → isComposite (g.tag m) = true)
    (hp : Explains g (noted q n p r) pending' n p) : Sound g pending' (noted q n p r) where
  graph := h.graph
  size := noted_size.trans h.size
  turns := hturns
  parts := by
    intro m q hq
    rw [part?_noted] at hq
    split at hq
    · next hm => rw [hm.1, ← Option.some.inj hq]; exact hp
    · next hm =>
      have hold : Explains g r pending m q := h.parts m q hq
      cases q with
      | scalar s => exact hold
      | waiting =>
        refine ⟨hold.1, ?_⟩
        rcases hold.2 with hmem | hmem
        · exact .inl (hqueue m hmem)
        · rcases hpending m hmem with rfl | hmem
          · exact absurd ⟨rfl, part?_lt hq⟩ hm
          · exact .inr hmem
      | list items => exact ⟨hold.1, hold.2.1, fun i hi => known_noted (hold.2.2 i hi)⟩
      | map es =>
        exact ⟨hold.1, hold.2.1, fun e he => ⟨known_noted (hold.2.2 e he).1, known_noted (hold.2.2 e he).2⟩⟩
      | pairs | set => exact hold

/-! ### Steps -/

/-- Out of a graph no collection is found. -/
theorem lt_size_of_isComposite (h : isComposite (g.tag n) = true) : n < g.size := by
  refine Nat.lt_of_not_le fun hn => ?_
  rw [Graph.tag, Graph.vertex, Array.getD_eq_getD_getElem?, Array.getElem?_eq_none hn] at h
  exact Bool.noConfusion h

/-- A step keeps the invariant and gives parts to some nodes. -/
structure Gives (g : Graph) (pending : List Nat) (r : Reading) (ns : List Nat) (r' : Reading) : Prop where
  sound : Sound g pending r'
  grows : Grows r r'
  known : ∀ n ∈ ns, r'.Known n

/-- What a look at a node does: nothing where it has a part, and otherwise it notes one. -/
theorem visit_cases (h : r.visit n = .ok r') :
    (∃ p, r.part? n = some p ∧ r' = r) ∨
    (r.part? n = none ∧ isComposite (r.graph.tag n) = true ∧ r' = noted (n :: r.queue) n .waiting r) ∨
    (isComposite (r.graph.tag n) = false ∧ ∃ s, scalarOf r.graph n = .ok s
      ∧ r' = noted r.queue n (.scalar s) r) := by
  rw [visit] at h
  cases hpart : r.part? n with
  | some p =>
    rw [hpart] at h
    exact .inl ⟨p, rfl, (Except.ok.inj h).symm⟩
  | none =>
    simp only [hpart] at h
    split at h
    · next hcomposite => exact .inr (.inl ⟨rfl, hcomposite, (Except.ok.inj h).symm⟩)
    · next hcomposite =>
      cases hscalar : scalarOf r.graph n with
      | error f =>
        rw [hscalar] at h
        cases h
      | ok s =>
        rw [hscalar] at h
        exact .inr (.inr ⟨by simpa using hcomposite, s, rfl, (Except.ok.inj h).symm⟩)

theorem visit_gives (h : Sound g pending r) (hvisit : r.visit n = .ok r') : Gives g pending r [n] r' := by
  obtain rfl := h.graph
  rcases visit_cases hvisit with ⟨p, hpart, rfl⟩ | ⟨hpart, hcomposite, rfl⟩ | ⟨hscalar, s, hs, rfl⟩
  · refine ⟨h, .refl r', fun m hm _ => ?_⟩
    rw [List.mem_singleton.1 hm, hpart]
    rfl
  · have hturns : ∀ m, m ∈ n :: r.queue ∨ m ∈ pending → isComposite (r.graph.tag m) = true := by
      rintro m (hm | hm)
      · rcases List.mem_cons.1 hm with rfl | hm
        · exact hcomposite
        · exact h.turns m (.inl hm)
      · exact h.turns m (.inr hm)
    refine ⟨h.noted (fun m hm => List.mem_cons_of_mem _ hm) (fun m hm => .inr hm) hturns
      ⟨hcomposite, .inl (List.mem_cons_self ..)⟩, ⟨noted_size, fun m hm => known_noted hm, ?_⟩, ?_⟩
    · have hlt : n < r.parts.size := h.size ▸ lt_size_of_isComposite hcomposite
      have hcost : (noted (n :: r.queue) n .waiting r).unvisited + 1 = r.unvisited :=
        unvisited_note_lt (r := { r with queue := n :: r.queue }) hlt hpart
      rw [noted_queue, List.length_cons]
      omega
    · intro m hm
      rw [List.mem_singleton.1 hm]
      exact known_noted_self
  · refine ⟨h.noted (fun m hm => hm) (fun m hm => .inr hm) h.turns ⟨hscalar, hs⟩,
      ⟨noted_size, fun m hm => known_noted hm, Nat.add_le_add_left (unvisited_note_le _ _ _) _⟩, ?_⟩
    intro m hm
    rw [List.mem_singleton.1 hm]
    exact known_noted_self

/-- A node that was visited is a key when it is a scalar. -/
theorem visitKey_of_visit (h : r.visit n = .ok r') :
    r.visitKey n = match r'.part? n with
      | some (.scalar _) => .ok r'
      | _ => malformed := by
  rw [visitKey, h]
  rfl

theorem visitKey_gives (h : Sound g pending r) (hvisit : r.visitKey n = .ok r') : Gives g pending r [n] r' := by
  cases hfirst : r.visit n with
  | error f =>
    rw [visitKey, hfirst] at hvisit
    cases hvisit
  | ok r₁ =>
    rw [visitKey_of_visit hfirst] at hvisit
    split at hvisit
    · obtain rfl := Except.ok.inj hvisit
      exact visit_gives h hfirst
    · cases hvisit

theorem visitItems_gives (items : List Nat) (h : Sound g pending r) (hvisit : visitItems items r = .ok r') :
    Gives g pending r items r' := by
  induction items generalizing r with
  | nil =>
    obtain rfl := Except.ok.inj hvisit
    exact ⟨h, .refl r, by simp⟩
  | cons n items ih =>
    cases hfirst : r.visit n with
    | error f =>
      rw [visitItems, hfirst] at hvisit
      cases hvisit
    | ok r₁ =>
      rw [visitItems, hfirst] at hvisit
      have hn := visit_gives h hfirst
      have hrest := ih hn.sound hvisit
      refine ⟨hrest.sound, hn.grows.trans hrest.grows, fun m hm => ?_⟩
      rcases List.mem_cons.1 hm with rfl | hm
      · exact hrest.grows.known _ (hn.known _ (List.mem_singleton_self _))
      · exact hrest.known m hm

theorem visitEntries_gives (es : List (Nat × Nat)) (h : Sound g pending r)
    (hvisit : visitEntries es r = .ok r') :
    Sound g pending r' ∧ Grows r r' ∧ ∀ e ∈ es, r'.Known e.1 ∧ r'.Known e.2 := by
  induction es generalizing r with
  | nil =>
    obtain rfl := Except.ok.inj hvisit
    exact ⟨h, .refl r, by simp⟩
  | cons e es ih =>
    obtain ⟨k, v⟩ := e
    cases hkey : r.visitKey k with
    | error f =>
      rw [visitEntries, hkey] at hvisit
      cases hvisit
    | ok r₁ =>
      rw [visitEntries, hkey] at hvisit
      change (r₁.visit v).bind _ = _ at hvisit
      cases hvalue : r₁.visit v with
      | error f =>
        rw [hvalue] at hvisit
        cases hvisit
      | ok r₂ =>
        rw [hvalue] at hvisit
        have hk := visitKey_gives h hkey
        have hv := visit_gives hk.sound hvalue
        obtain ⟨hsound, hgrows, hknown⟩ := ih hv.sound hvisit
        refine ⟨hsound, hk.grows.trans (hv.grows.trans hgrows), fun e he => ?_⟩
        rcases List.mem_cons.1 he with rfl | he
        · exact ⟨hgrows.known k (hv.grows.known k (hk.known k (List.mem_singleton_self k))),
            hgrows.known v (hv.known v (List.mem_singleton_self v))⟩
        · exact hknown e he

/-- A collection whose turn it was is no longer pending. -/
theorem Sound.finished {m : Nat} (h : Sound g (m :: pending) r)
    (hp : Explains g (Reading.noted r.queue m p r) pending m p) : Sound g pending (r.note m p) :=
  h.noted (q := r.queue) (fun _ hk => hk) (fun _ hk => List.mem_cons.1 hk)
    (fun k hk => h.turns k (hk.imp_right (List.mem_cons_of_mem _))) hp

theorem grows_note (r : Reading) (n : Nat) (p : Part) : Grows r (r.note n p) :=
  ⟨noted_size (q := r.queue), fun _ hm => known_noted (q := r.queue) hm,
    Nat.add_le_add_left (unvisited_note_le r n p) _⟩

theorem readCollection_gives (hg : g.Unmerged) (h : Sound g (n :: pending) r)
    (hread : r.readCollection n = .ok r') : Sound g pending r' ∧ Grows r r' := by
  obtain rfl := h.graph
  have hrare := hg n
  rw [readCollection] at hread
  split at hread
  · next htag hcontent =>
    rw [readEntries, Graph.flatten_eq hg] at hread
    change ((visitEntries (r.graph.entries n) r).bind _).bind _ = _ at hread
    cases hvisit : visitEntries (r.graph.entries n) r with
    | error f =>
      rw [hvisit] at hread
      cases hread
    | ok r₁ =>
      rw [hvisit] at hread
      obtain rfl := Except.ok.inj hread
      obtain ⟨hsound, hgrows, hknown⟩ := visitEntries_gives _ h hvisit
      have hentries : (r.graph.vertex n).content = .mapping (r.graph.entries n) := by
        rw [Graph.entries, hcontent]
      refine ⟨hsound.finished ⟨htag, hentries, fun e he => ?_⟩, hgrows.trans (grows_note _ _ _)⟩
      exact ⟨known_noted (hknown e he).1, known_noted (hknown e he).2⟩
  · next htag _ =>
    rw [htag] at hrare
    exact Bool.noConfusion hrare
  · next items htag hcontent =>
    cases hvisit : r.visitItems items with
    | error f =>
      rw [hvisit] at hread
      cases hread
    | ok r₁ =>
      rw [hvisit] at hread
      obtain rfl := Except.ok.inj hread
      have hgives := visitItems_gives items h hvisit
      refine ⟨hgives.sound.finished ⟨htag, hcontent, fun i hi => ?_⟩, hgives.grows.trans (grows_note _ _ _)⟩
      exact known_noted (hgives.known i hi)
  · next htag _ =>
    rw [htag] at hrare
    exact Bool.noConfusion hrare
  · next htag _ =>
    rw [htag] at hrare
    exact Bool.noConfusion hrare
  · cases hread

theorem readLevel_gives (hg : g.Unmerged) (pending : List Nat) (h : Sound g pending r)
    (hread : readLevel pending r = .ok r') : Sound g [] r' ∧ Grows r r' := by
  induction pending generalizing r with
  | nil =>
    obtain rfl := Except.ok.inj hread
    exact ⟨h, .refl r⟩
  | cons n pending ih =>
    rw [readLevel] at hread
    cases hfirst : r.readCollection n with
    | error f =>
      rw [hfirst] at hread
      cases hread
    | ok r₁ =>
      rw [hfirst] at hread
      obtain ⟨hsound, hgrows⟩ := readCollection_gives hg h hfirst
      obtain ⟨hsound', hgrows'⟩ := ih hsound hread
      exact ⟨hsound', hgrows.trans hgrows'⟩

/-- The collections in the queue become pending. -/
theorem Sound.turn (h : Sound g [] r) : Sound g r.queue.reverse { r with queue := [] } where
  graph := h.graph
  size := h.size
  turns n hn := by
    rcases hn with hn | hn
    · exact absurd hn List.not_mem_nil
    · exact h.turns n (.inl (List.mem_reverse.1 hn))
  parts n p hp := by
    have hold := h.parts n p hp
    cases p with
    | waiting =>
      refine ⟨hold.1, .inr (List.mem_reverse.2 ?_)⟩
      rcases hold.2 with hn | hn
      · exact hn
      · exact absurd hn List.not_mem_nil
    | scalar | list | map | pairs | set => exact hold

/-- After as many levels as there are nodes nothing is left in the queue. -/
theorem readLevels_gives (hg : g.Unmerged) (count : Nat) (h : Sound g [] r)
    (hcount : r.queue.length + r.unvisited ≤ count) (hread : readLevels count r = .ok r') :
    Sound g [] r' ∧ (∀ n, r.Known n → r'.Known n) ∧ r'.queue = [] := by
  induction count generalizing r with
  | zero =>
    obtain rfl := Except.ok.inj hread
    exact ⟨h, fun _ hn => hn, List.length_eq_zero_iff.1 (by omega)⟩
  | succ count ih =>
    rw [readLevels] at hread
    split at hread
    · next hempty =>
      obtain rfl := Except.ok.inj hread
      exact ⟨h, fun _ hn => hn, List.isEmpty_iff.1 hempty⟩
    · next hempty =>
      cases hlevel : readLevel r.queue.reverse { r with queue := [] } with
      | error f =>
        rw [hlevel] at hread
        cases hread
      | ok r₁ =>
        rw [hlevel] at hread
        obtain ⟨hsound, hgrows⟩ := readLevel_gives hg _ h.turn hlevel
        have hpos : r.queue.length ≠ 0 := by
          intro h₀
          exact hempty (List.isEmpty_iff.2 (List.length_eq_zero_iff.1 h₀))
        have hcost : r₁.queue.length + r₁.unvisited ≤ 0 + r.unvisited := hgrows.cost
        obtain ⟨hsound', hknown, hqueue⟩ := ih hsound (by omega) hread
        exact ⟨hsound', fun n hn => hknown n (hgrows.known n hn), hqueue⟩

/-! ### Whole graphs -/

theorem sound_start (g : Graph) : Sound g [] (start g) where
  graph := rfl
  size := Array.size_replicate ..
  turns n hn := by rcases hn with hn | hn <;> exact absurd hn List.not_mem_nil
  parts n p hp := by
    have hn : n < g.size := by simpa [start] using part?_lt hp
    rw [part?, start, Array.getD_eq_getD_getElem?, Array.getElem?_replicate, if_pos hn] at hp
    cases hp

theorem unvisited_start (g : Graph) : (start g).unvisited = g.size := by
  rw [unvisited, start, Array.toList_replicate, List.countP_replicate]
  rfl

/-- The parts of a graph are those of a state in which no collection is left. -/
theorem run_closed (hg : g.Unmerged) {ps : Parts} (h : run g = .ok ps) :
    ∃ r, r.parts = ps ∧ Sound g [] r ∧ r.queue = [] ∧ r.Known 0 := by
  cases hvisit : (start g).visit 0 with
  | error f =>
    rw [run, hvisit] at h
    cases h
  | ok r₀ =>
    rw [run, hvisit] at h
    change (readLevels (g.size + 1) r₀).bind _ = _ at h
    cases hlevels : readLevels (g.size + 1) r₀ with
    | error f =>
      rw [hlevels] at h
      cases h
    | ok r =>
      rw [hlevels] at h
      have hroot := visit_gives (sound_start g) hvisit
      have hcost : r₀.queue.length + r₀.unvisited ≤ 0 + (start g).unvisited := hroot.grows.cost
      rw [unvisited_start] at hcost
      obtain ⟨hsound, hknown, hqueue⟩ := readLevels_gives hg (g.size + 1) hroot.sound (by omega) hlevels
      exact ⟨r, Except.ok.inj h, hsound, hqueue, hknown 0 (hroot.known 0 (List.mem_singleton_self 0))⟩

/-! ### Graphs that have parts -/

end Reading

/-- All scalars of a graph have values, collections are what their tags say, and keys are scalars. -/
structure Graph.Valued (g : Graph) : Prop where
  scalars : ∀ n, isComposite (g.tag n) = false → ∃ s, scalarOf g n = .ok s
  lists : ∀ n, g.tag n = .seq → ∃ items, (g.vertex n).content = .sequence items
  maps : ∀ n, g.tag n = .map → ∃ es, (g.vertex n).content = .mapping es ∧
    ∀ e ∈ es, e.1 < g.size ∧ isComposite (g.tag e.1) = false

namespace Reading

variable {g : Graph} {pending : List Nat} {r r' : Reading} {n : Nat}

theorem exists_visit (hv : g.Valued) (h : Sound g pending r) (n : Nat) : ∃ r', r.visit n = .ok r' := by
  obtain rfl := h.graph
  rw [visit]
  cases hpart : r.part? n with
  | some p => exact ⟨r, rfl⟩
  | none =>
    simp only
    split
    · exact ⟨_, rfl⟩
    · next hcomposite =>
      obtain ⟨s, hs⟩ := hv.scalars n (by simpa using hcomposite)
      rw [hs]
      exact ⟨_, rfl⟩

theorem exists_visitKey (hv : g.Valued) (h : Sound g pending r) (hn : n < g.size)
    (hscalar : isComposite (g.tag n) = false) : ∃ r', r.visitKey n = .ok r' := by
  obtain ⟨r₁, hvisit⟩ := exists_visit hv h n
  have hgives := visit_gives h hvisit
  obtain ⟨p, hp⟩ := Option.isSome_iff_exists.1
    (hgives.known n (List.mem_singleton_self n) (by rwa [hgives.sound.size]))
  have hexplains := hgives.sound.parts n p hp
  refine ⟨r₁, ?_⟩
  rw [visitKey_of_visit hvisit, hp]
  cases p with
  | scalar s => rfl
  | waiting => exact absurd hexplains.1 (by rw [hscalar]; exact Bool.false_ne_true)
  | list items => exact absurd hscalar (by rw [hexplains.1]; exact Bool.noConfusion)
  | map es => exact absurd hscalar (by rw [hexplains.1]; exact Bool.noConfusion)
  | pairs items => exact hexplains.elim
  | set keys => exact hexplains.elim

theorem exists_visitItems (hv : g.Valued) (items : List Nat) (h : Sound g pending r) :
    ∃ r', r.visitItems items = .ok r' := by
  induction items generalizing r with
  | nil => exact ⟨r, rfl⟩
  | cons n items ih =>
    obtain ⟨r₁, hvisit⟩ := exists_visit hv h n
    obtain ⟨r₂, hrest⟩ := ih (visit_gives h hvisit).sound
    refine ⟨r₂, ?_⟩
    rw [visitItems, hvisit]
    exact hrest

theorem exists_visitEntries (hv : g.Valued) (es : List (Nat × Nat)) (h : Sound g pending r)
    (hes : ∀ e ∈ es, e.1 < g.size ∧ isComposite (g.tag e.1) = false) : ∃ r', r.visitEntries es = .ok r' := by
  induction es generalizing r with
  | nil => exact ⟨r, rfl⟩
  | cons e es ih =>
    obtain ⟨k, v⟩ := e
    obtain ⟨hk, hscalar⟩ := hes (k, v) (List.mem_cons_self ..)
    obtain ⟨r₁, hkey⟩ := exists_visitKey hv h hk hscalar
    have hsound := (visitKey_gives h hkey).sound
    obtain ⟨r₂, hvalue⟩ := exists_visit hv hsound v
    obtain ⟨r₃, hrest⟩ := ih (visit_gives hsound hvalue).sound fun e he => hes e (List.mem_cons_of_mem _ he)
    refine ⟨r₃, ?_⟩
    rw [visitEntries, hkey]
    change (r₁.visit v).bind _ = _
    rw [hvalue]
    exact hrest

theorem exists_readCollection (hg : g.Unmerged) (hv : g.Valued) (h : Sound g pending r)
    (hcomposite : isComposite (g.tag n) = true) : ∃ r', r.readCollection n = .ok r' := by
  obtain rfl := h.graph
  have hrare := hg n
  rw [readCollection]
  cases htag : r.graph.tag n with
  | seq =>
    obtain ⟨items, hitems⟩ := hv.lists n htag
    obtain ⟨r₁, hvisit⟩ := exists_visitItems hv items h
    simp only [hitems, hvisit]
    exact ⟨_, rfl⟩
  | map =>
    obtain ⟨es, hcontent, hes⟩ := hv.maps n htag
    obtain ⟨r₁, hvisit⟩ := exists_visitEntries hv es h hes
    have hread : r.readEntries n = .ok (es, r₁) := by
      rw [readEntries, Graph.flatten_eq hg]
      change ((visitEntries (r.graph.entries n) r).bind _) = _
      rw [Graph.entries, hcontent, hvisit]
      rfl
    simp only [hcontent, hread]
    exact ⟨_, rfl⟩
  | set | omap | pairs =>
    rw [htag] at hrare
    exact Bool.noConfusion hrare
  | null | bool | int | float | timestamp | str | binary | merge | value | reserved | other =>
    rw [htag] at hcomposite
    exact Bool.noConfusion hcomposite

theorem exists_readLevel (hg : g.Unmerged) (hv : g.Valued) (pending : List Nat) (h : Sound g pending r) :
    ∃ r', readLevel pending r = .ok r' := by
  induction pending generalizing r with
  | nil => exact ⟨r, rfl⟩
  | cons n pending ih =>
    obtain ⟨r₁, hfirst⟩ := exists_readCollection hg hv h (h.turns n (.inr (List.mem_cons_self ..)))
    obtain ⟨r₂, hrest⟩ := ih (readCollection_gives hg h hfirst).1
    refine ⟨r₂, ?_⟩
    rw [readLevel, hfirst]
    exact hrest

theorem exists_readLevels (hg : g.Unmerged) (hv : g.Valued) (count : Nat) (h : Sound g [] r) :
    ∃ r', readLevels count r = .ok r' := by
  induction count generalizing r with
  | zero => exact ⟨r, rfl⟩
  | succ count ih =>
    rw [readLevels]
    split
    · exact ⟨r, rfl⟩
    · obtain ⟨r₁, hlevel⟩ := exists_readLevel hg hv _ h.turn
      rw [hlevel]
      exact ih (readLevel_gives hg _ h.turn hlevel).1

theorem exists_run (hg : g.Unmerged) (hv : g.Valued) : ∃ ps, run g = .ok ps := by
  obtain ⟨r₀, hvisit⟩ := exists_visit hv (sound_start g) 0
  obtain ⟨r, hlevels⟩ := exists_readLevels hg hv (g.size + 1) (visit_gives (sound_start g) hvisit).sound
  refine ⟨r.parts, ?_⟩
  rw [run, hvisit]
  change ((readLevels (g.size + 1) r₀).bind _) = _
  rw [hlevels]
  rfl

end Reading

end RouteDoc.Yaml
