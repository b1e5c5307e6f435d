import RouteDoc.Proofs.Effect
import RouteDoc.Proofs.Publication

/-!
# Overrides one after another

An override laid over its own result changes nothing.  Two overrides in turn are laid over a document as one: the
second laid over the first.  The one thing that can come between is a value of the first override that is no
mapping, where document and second override both have mappings: in turn it wipes out what the document had there,
and in the combined override it is gone before it is met.

* `Entries.set_comm` — storing under two keys;
* `Entries.merge_set` — storing a value in the override;
* `Value.over_assoc_iff` — when overrides can be combined;
* `Value.merge_combined` — the same for mappings;
* `Value.merge_twice` — an override applied twice.
-/

namespace RouteDoc

namespace Entries

variable {k l : Key} {x y : Value} {es fs gs : Entries}

/-! ### Storing one value after another -/

/-- A value under a key that is there and one under another key can be stored in either order. -/
theorem set_comm (hne : k.same l = false) (h : has k es = true) (x y : Value) :
    set k y (set l x es) = set l x (set k y es) := by
  induction es with
  | nil => cases h
  | cons e es ih =>
    obtain ⟨m, v⟩ := e
    rw [has_cons, Bool.or_eq_true] at h
    by_cases hm : m.same k = true
    · have hml : ¬ m.same l = true := by
        intro hml
        rw [Key.same_congr hm, hne] at hml
        cases hml
      rw [set, if_neg hml, set, if_pos hm, set, if_pos hm, set, if_neg hml]
    · have hin : has k es = true := h.resolve_left hm
      by_cases hml : m.same l = true
      · rw [set, if_pos hml, set, if_neg hm, set, if_neg hm, set, if_pos hml]
      · rw [set, if_neg hml, set, if_neg hm, set, if_neg hm, set, if_neg hml, ih hin]

/-- A value under a key that the override does not have can be stored before it as well as after it. -/
theorem set_merge (hk : has k fs = false) (h : has k es = true) (y : Value) :
    set k y (merge es fs) = merge (set k y es) fs := by
  induction fs generalizing es with
  | nil => rw [merge, merge]
  | cons f fs ih =>
    obtain ⟨l, v⟩ := f
    rw [has_cons, Bool.or_eq_false_iff] at hk
    have hne : k.same l = false := by rw [Key.same_comm, hk.1]
    have hget : (set k y es).get? l = es.get? l := by rw [get?_set, hne]; rfl
    rw [merge, merge, ih hk.2 (has_set h), set_comm hne h, hget]

/-- **Storing a value in an override** is storing it afterwards, laid over what the document has. -/
theorem merge_set (hfs : fs.Unrepeated) (k : Key) (x : Value) (es : Entries) :
    merge es (set k x fs) = set k (Value.over (es.get? k) x) (merge es fs) := by
  induction fs generalizing es with
  | nil => rw [set, merge, merge, merge]
  | cons f fs ih =>
    obtain ⟨l, u⟩ := f
    by_cases hl : l.same k = true
    · have hnone : has k fs = false := by rw [has, hfs.get?_tail hl]; rfl
      have hthere : has k (set l (Value.over (es.get? l) u) es) = true := by rw [has, get?_set, if_pos hl]; rfl
      rw [set, if_pos hl, merge, merge, set_merge hnone hthere, set_set hl, get?_congr hl]
    · have hget : (set l (Value.over (es.get? l) u) es).get? k = es.get? k := by rw [get?_set, if_neg hl]
      rw [set, if_neg hl, merge, merge, ih hfs.tail, hget]

/-- Overrides in turn are one override as soon as this holds under each key that both have. -/
theorem merge_merge (hfs : fs.Unrepeated) (hgs : gs.Unrepeated)
    (h : ∀ g ∈ gs, ∀ y, fs.get? g.1 = some y →
      Value.over (some (Value.over (es.get? g.1) y)) g.2 = Value.over (es.get? g.1) (Value.over (some y) g.2)) :
    merge (merge es fs) gs = merge es (merge fs gs) := by
  induction gs generalizing fs with
  | nil => rw [merge, merge]
  | cons g gs ih =>
    obtain ⟨k, v⟩ := g
    -- the value under the key, whether or not the first override has one
    have hvalue : Value.over ((merge es fs).get? k) v = Value.over (es.get? k) (Value.over (fs.get? k) v) := by
      rw [get?_merge hfs]
      cases hk : fs.get? k with
      | none => rw [Value.over_none]; rfl
      | some y => exact h (k, v) List.mem_cons_self y hk
    rw [merge, merge, hvalue, ← merge_set hfs]
    refine ih (hfs.set k _) hgs.tail fun g hg y hy => ?_
    have hne : k.same g.1 = false := (List.pairwise_cons.1 hgs).1 g hg
    rw [get?_set, hne] at hy
    exact h g (List.mem_cons_of_mem _ hg) y hy

/-- What holds of the values of a mapping and of those that an override leaves holds of all merged ones. -/
theorem forall_mem_merge {P : Value → Prop} {os : Entries} (hes : ∀ e ∈ es, P e.2)
    (hos : ∀ o ∈ os, ∀ existing, (∀ w, existing = some w → P w) → P (Value.over existing o.2)) :
    ∀ e ∈ merge es os, P e.2 := by
  induction os generalizing es with
  | nil => rwa [merge]
  | cons o os ih =>
    obtain ⟨k, v⟩ := o
    rw [merge]
    refine ih (fun e he => ?_) fun o ho => hos o (List.mem_cons_of_mem _ ho)
    rcases mem_set he with hold | ⟨-, hnew⟩
    · exact hes e hold
    · rw [hnew]
      refine hos (k, v) List.mem_cons_self _ fun w hw => ?_
      obtain ⟨l, hl, -⟩ := exists_mem_of_get? hw
      exact hes (l, w) hl

end Entries

/-! ### Combining overrides -/

namespace Value

variable {a b c v : Value} {existing : Option Value}

theorem over_of_left (h : ∀ es, existing ≠ some (.map es)) (v : Value) : Value.over existing v = v := by
  rcases over_cases existing v with hover | ⟨base, os, hbase, -⟩
  · exact hover
  · exact absurd hbase (h base)

/-- Whatever is laid over a value that is no mapping replaces it. -/
theorem over_leaf {w : Value} (hleaf : w.isMap = false) (v : Value) : Value.over (some w) v = v := by
  refine over_of_left (fun es hes => ?_) v
  cases hes
  cases hleaf

theorem Unrepeated.over (hv : v.Unrepeated) (h : ∀ w, existing = some w → w.Unrepeated) :
    (Value.over existing v).Unrepeated := by
  induction hv generalizing existing with
  | leaf hleaf =>
    rw [over_of_not_isMap hleaf]
    exact .leaf hleaf
  | @map os hos _ ih =>
    have hentries : (Value.map (entriesOf existing)).Unrepeated := by
      by_cases hbase : ∃ es : Entries, existing = some (.map es)
      · obtain ⟨es, rfl⟩ := hbase
        exact h _ rfl
      · have hnil : entriesOf existing = [] := entriesOf_eq_nil fun es hes => hbase ⟨es, hes⟩
        rw [hnil]
        exact .map List.Pairwise.nil (by simp)
    rw [over_map hos]
    cases hentries with
    | leaf hleaf => cases hleaf
    | map hes hvalues => exact .map (hes.merge os) (Entries.forall_mem_merge hvalues fun o ho _ => ih o ho)

/-- Where a value of the first override that is no mapping comes between mappings of the document and of the second
override, the document's mapping makes no difference to the second override. -/
def CutsNothing (a b c : Value) : Prop :=
  ∀ p es w gs, a.at? p = some (.map es) → b.at? p = some w → w.isMap = false → c.at? p = some (.map gs) →
    Entries.merge es gs = gs

theorem CutsNothing.under {es fs gs : Entries} {k : Key} {x y z : Value}
    (h : CutsNothing (.map es) (.map fs) (.map gs)) (hx : es.get? k = some x) (hy : fs.get? k = some y)
    (hz : gs.get? k = some z) : CutsNothing x y z := by
  intro p es' w gs' ha hb hw hc
  exact h (k :: p) es' w gs' (by simpa [hx] using ha) (by simpa [hy] using hb) hw (by simpa [hz] using hc)

/-- The second override over the first, laid over a document, is one after the other if nothing is cut. -/
theorem over_assoc (hb : b.Unrepeated) (hc : c.Unrepeated) (h : CutsNothing a b c) :
    Value.over (some (Value.over (some a) b)) c = Value.over (some a) (Value.over (some b) c) := by
  induction hc generalizing a b with
  | leaf hleaf => simp only [over_of_not_isMap hleaf]
  | @map gs hgs _ ih =>
    cases hb with
    | leaf hleaf =>
      -- the first override leaves no mapping, and what it replaces is the question
      rw [over_of_not_isMap hleaf, over_leaf hleaf]
      by_cases ha : ∃ es, a = .map es
      · obtain ⟨es, rfl⟩ := ha
        rw [over_map_map, h [] es b gs (at?_nil _) (at?_nil _) hleaf (at?_nil _)]
      · rw [over_of_left fun es hes => ha ⟨es, Option.some.inj hes⟩]
    | @map fs hfs hvalues =>
      by_cases ha : ∃ es, a = .map es
      · obtain ⟨es, rfl⟩ := ha
        rw [over_map_map, over_map_map, over_map_map, over_map_map]
        refine congrArg Value.map (Entries.merge_merge hfs hgs fun g hg y hy => ?_)
        cases hx : Entries.get? g.1 es with
        | none => rw [over_none, over_none]
        | some x =>
          obtain ⟨l, hl, -⟩ := Entries.exists_mem_of_get? hy
          have hz : Entries.get? g.1 gs = some g.2 := hgs.get?_of_mem hg (Entries.same_self_of_get? hy)
          exact ih g hg (hvalues (l, y) hl) (h.under hx hy hz)
      · have hleft : ∀ v : Value, Value.over (some a) v = v :=
          over_of_left fun es hes => ha ⟨es, Option.some.inj hes⟩
        rw [hleft, hleft]

/-- **When overrides can be combined**: laying them over a document in turn is laying their combination over it,
key order included, exactly when nothing is cut. -/
theorem over_assoc_iff (hb : b.Unrepeated) (hc : c.Unrepeated) :
    Value.over (some (Value.over (some a) b)) c = Value.over (some a) (Value.over (some b) c) ↔
      CutsNothing a b c := by
  refine ⟨fun heq p es w gs ha hw hleaf hgs => ?_, over_assoc hb hc⟩
  have hcombined : (Value.over (some b) c).Unrepeated := hc.over fun u hu => by cases hu; exact hb
  have hin : (Value.over (some a) b).at? p = some w := by
    rw [at?_over_of_at? (hb.unrepeatedAbove p) hw, over_of_not_isMap hleaf]
  -- in turn, the mapping of the second override replaces the value that is no mapping
  have hturn : (Value.over (some (Value.over (some a) b)) c).at? p = some (.map gs) := by
    rw [at?_over_of_at? (hc.unrepeatedAbove p) hgs, Option.bind_some, hin, over_leaf hleaf]
  -- combined, it is laid over the mapping of the document
  have hat : (Value.over (some b) c).at? p = some (.map gs) := by
    rw [at?_over_of_at? (hc.unrepeatedAbove p) hgs, Option.bind_some, hw, over_leaf hleaf]
  have hone : (Value.over (some a) (Value.over (some b) c)).at? p = some (.map (Entries.merge es gs)) := by
    rw [at?_over_of_at? (hcombined.unrepeatedAbove p) hat, Option.bind_some, ha, over_map_map]
  rw [heq, hone] at hturn
  exact Value.map.inj (Option.some.inj hturn)

/-- **Overrides one after another are their combination**, unless a value of the first that is no mapping comes
between mappings of the document and of the second. -/
theorem merge_combined (a b c : Entries) (hb : (Value.map b).Unrepeated) (hc : (Value.map c).Unrepeated)
    (hcut : ∀ p w, (Value.map b).at? p = some w → (∃ es, (Value.map a).at? p = some (.map es)) →
      (∃ gs, (Value.map c).at? p = some (.map gs)) → w.isMap = true) :
    ∃ ab bc merged : Value,
      (Value.map a).merge (.map b) = .ok ab ∧ ab.merge (.map c) = .ok merged ∧
      (Value.map b).merge (.map c) = .ok bc ∧ (Value.map a).merge bc = .ok merged := by
  have hnothing : CutsNothing (.map a) (.map b) (.map c) := by
    intro p es w gs ha hw hleaf hgs
    have hmap : w.isMap = true := hcut p w hw ⟨es, ha⟩ ⟨gs, hgs⟩
    rw [hleaf] at hmap
    cases hmap
  have hassoc := over_assoc hb hc hnothing
  rw [over_map_map, over_map_map, over_map_map, over_map_map] at hassoc
  refine ⟨.map (a.merge b), .map (b.merge c), .map (Entries.merge (a.merge b) c), rfl, rfl, rfl, ?_⟩
  rw [hassoc]
  rfl

/-- A second override of pets, with a text where the first has a mapping and the document a text. -/
def petsCorrection : Entries := [(.str "info", .map [(.str "contact", .str "Bob")]), (.str "paths", .list [])]

theorem petsCorrection_unrepeated : (Value.map petsCorrection).Unrepeated := by
  have hinfo : (Value.object [("contact", .str "Bob")]).Proper := Proper.single (by simp)
  have hall : (Value.object [("info", .object [("contact", .str "Bob")]), ("paths", .list [])]).Proper :=
    .object (by decide) (by simp [hinfo])
  exact hall.unrepeated

/-- The only mappings of the second override are the whole of it and what it says about itself. -/
theorem eq_of_at?_petsCorrection {p : KeyPath} {gs : Entries}
    (h : (Value.map petsCorrection).at? p = some (.map gs)) : p = [] ∨ p = [.str "info"] := by
  cases p with
  | nil => exact .inl rfl
  | cons k p =>
    refine .inr ?_
    obtain ⟨x, hx, hbelow⟩ := Option.bind_eq_some_iff.1 h
    simp only [petsCorrection, Entries.get?] at hx
    split at hx
    · next hk =>
      cases hx
      rw [(Key.str_same_iff _ _).1 hk]
      cases p with
      | nil => rfl
      | cons l p =>
        obtain ⟨y, hy, hbelow⟩ := Option.bind_eq_some_iff.1 hbelow
        simp only [Entries.get?] at hy
        split at hy
        · cases hy
          cases p <;> simp [at?] at hbelow
        · cases hy
    · split at hx
      · cases hx
        cases p <;> simp [at?] at hbelow
      · cases hx

/-- Both overrides of pets, in turn and combined. -/
theorem merge_combined_pets :
    ∃ ab bc merged : Value,
      (Value.map petsDocument).merge (.map petsOverride) = .ok ab ∧ ab.merge (.map petsCorrection) = .ok merged ∧
      (Value.map petsOverride).merge (.map petsCorrection) = .ok bc ∧
      (Value.map petsDocument).merge bc = .ok merged := by
  refine merge_combined petsDocument petsOverride petsCorrection petsOverride_proper.unrepeated
    petsCorrection_unrepeated fun p w hw _ hgs => ?_
  obtain ⟨gs, hgs⟩ := hgs
  rcases eq_of_at?_petsCorrection hgs with rfl | rfl
  · cases hw
    rfl
  · cases hw
    rfl

/-- **An override applied twice is applied once**, to a whole document and to one of its paths.  Keys that differ from
themselves, as a computed NaN does, are left out: such a key is found again as the very same object alone, and a value
does not say which object a key is. -/
theorem merge_twice (os : Entries) (hos : (Value.map os).Proper) :
    (∀ base : Entries, ∃ once : Value,
      (Value.map base).mergeInto (.map os) = .ok once ∧ once.mergeInto (.map os) = .ok once) ∧
    ∀ (path : String) (document once : Value),
      document.mergeRoute path (.map os) = .ok once → once.mergeRoute path (.map os) = .ok once := by
  constructor
  · intro base
    have hagain := hos.over_over (some (.map base))
    rw [over_map_map, over_map_map] at hagain
    refine ⟨.map (base.merge os), rfl, ?_⟩
    show Except.ok (Value.map (Entries.merge (base.merge os) os)) = _
    rw [hagain]
  · intro path document once h
    exact mergeRoute_again hos h

/-- The override of pets applied twice, to the document and to a path that it does not have. -/
theorem merge_twice_pets :
    ∃ once opened : Value,
      (Value.map petsDocument).mergeInto (.map petsOverride) = .ok once ∧
      once.mergeInto (.map petsOverride) = .ok once ∧
      (Value.map petsDocument).mergeRoute "/pets" (.map petsOverride) = .ok opened ∧
      opened.mergeRoute "/pets" (.map petsOverride) = .ok opened := by
  obtain ⟨hwhole, hpath⟩ := merge_twice petsOverride petsOverride_proper
  obtain ⟨once, honce, hagain⟩ := hwhole petsDocument
  have hopened : ∃ opened, (Value.map petsDocument).mergeRoute "/pets" (.map petsOverride) = .ok opened :=
    ⟨_, rfl⟩
  obtain ⟨opened, hopened⟩ := hopened
  exact ⟨once, opened, honce, hagain, hopened, hpath "/pets" _ _ hopened⟩

end Value

end RouteDoc
