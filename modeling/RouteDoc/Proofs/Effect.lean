import RouteDoc.Proofs.KeyPath

/-!
# The effect of an override

Laying an override over a document does what the override says and nothing else.  A part of the document
survives when the override says nothing at its path and has nothing but mappings above; every other part is the
override's own.  Keys keep their places, and those that only the override has follow in its order.

* `Entries.keys_merge` — the keys of a mapping after an override;
* `Entries.update_merge` — storing the merged entries in the mapping itself gives the merged mapping;
* `Value.Survives`, `Value.Effect` — all that an override does, at every path and every level;
* `Value.effect_of_merge` — the effect of an override of a mapping, merged apart or in place.
-/

namespace RouteDoc

namespace Entries

variable {key : Key} {value : Value} {es fs os base : Entries}

theorem keys_append (es fs : Entries) : keys (es ++ fs) = es.keys ++ fs.keys := List.map_append

/-! ### The keys of a mapping after an override -/

/-- The entries whose keys a mapping does not have. -/
def newTo (base os : Entries) : Entries := os.filter fun o => !has o.1 base

/-- **Keys keep their places under an override**, and those that only the override has follow in its order. -/
theorem keys_merge (hos : os.Unrepeated) (base : Entries) :
    (merge base os).keys = base.keys ++ (newTo base os).keys := by
  induction os generalizing base with
  | nil =>
    show (merge base []).keys = base.keys ++ []
    rw [merge, List.append_nil]
  | cons o os ih =>
    obtain ⟨k, v⟩ := o
    -- the key is met nowhere later in the override, so storing it makes no later key known
    have hnew : newTo (base.set k (Value.over (base.get? k) v)) os = newTo base os := by
      refine List.filter_congr fun o ho => ?_
      have hne : k.same o.1 = false := (List.pairwise_cons.1 hos).1 o ho
      rw [has, has, get?_set, hne]
      rfl
    rw [merge, ih hos.tail, hnew]
    cases hk : base.has k with
    | true =>
      have hdrop : newTo base ((k, v) :: os) = newTo base os := List.filter_cons_of_neg (by simp [hk])
      rw [keys_set_of_has hk, hdrop]
    | false =>
      have hkeep : newTo base ((k, v) :: os) = (k, v) :: newTo base os := List.filter_cons_of_pos (by simp [hk])
      rw [set_of_not_has hk, hkeep, keys_append, List.append_assoc]
      rfl

/-! ### Changing a mapping in place -/

/-- A mapping in which all entries of another one were stored. -/
def update (base entries : Entries) : Entries := entries.foldl (fun es e => es.set e.1 e.2) base

theorem set_append_of_not_has (h : es.has key = false) (fs : Entries) :
    set key value (es ++ fs) = es ++ fs.set key value := by
  induction es with
  | nil => rfl
  | cons e es ih =>
    obtain ⟨k, v⟩ := e
    rw [has_cons, Bool.or_eq_false_iff] at h
    rw [List.cons_append, set, if_neg (by simp [h.1]), ih h.2, List.cons_append]

/-- Entries replace those of a mapping one by one, as long as its keys come first and in its order. -/
theorem update_append {done : Entries} (hkeys : base.keys <+: fs.keys) (hdone : Unrepeated (done ++ fs))
    (hrefl : ∀ k ∈ base.keys, k.same k = true) : update (done ++ base) fs = done ++ fs := by
  induction fs generalizing done base with
  | nil =>
    have hbase : base = [] := List.map_eq_nil_iff.1 (List.prefix_nil.1 hkeys)
    rw [hbase]
    rfl
  | cons f fs ih =>
    obtain ⟨k, v⟩ := f
    have hnew : has k done = false :=
      has_eq_false_iff.2 fun e he => (List.pairwise_append.1 hdone).2.2 e he _ List.mem_cons_self
    have hstep : ∃ rest : Entries, set k v (done ++ base) = (done ++ [(k, v)]) ++ rest ∧
        rest.keys <+: keys fs ∧ ∀ l ∈ rest.keys, l.same l = true := by
      cases base with
      | nil => exact ⟨[], by rw [set_append_of_not_has hnew]; simp [set], List.nil_prefix, by simp [keys]⟩
      | cons e base =>
        obtain ⟨l, w⟩ := e
        obtain ⟨rfl, hrest⟩ := List.cons_prefix_cons.1 hkeys
        have hsame : l.same l = true := hrefl l List.mem_cons_self
        refine ⟨base, ?_, hrest, fun m hm => hrefl m (List.mem_cons_of_mem _ hm)⟩
        rw [set_append_of_not_has hnew, set, if_pos hsame, List.append_assoc]
        rfl
    obtain ⟨rest, hset, hrest, hsame⟩ := hstep
    show update (set k v (done ++ base)) fs = _
    rw [hset, ih hrest (by rwa [List.append_assoc]) hsame, List.append_assoc]
    rfl

/-- **Storing the merged entries in the mapping itself gives the merged mapping.** -/
theorem update_merge (hbase : base.Distinct) (hos : os.Unrepeated) :
    update base (merge base os) = merge base os := by
  have hkeys : base.keys <+: (merge base os).keys := by
    rw [keys_merge hos]
    exact List.prefix_append _ _
  have hrefl : ∀ k ∈ base.keys, k.same k = true := by
    intro k hk
    obtain ⟨e, he, rfl⟩ := List.mem_map.1 hk
    exact hbase.refl e he
  have hunrepeated : Unrepeated ([] ++ merge base os) := hbase.unrepeated.merge os
  exact update_append hkeys hunrepeated hrefl

end Entries

/-! ### What an override does -/

namespace Value

variable {base override v w : Value} {p q : KeyPath} {existing : Option Value}

/-- A part of a document that an override lets stand: the override says nothing at its path, and above it the
override has nothing but mappings. -/
structure Survives (base override : Value) (p : KeyPath) (w : Value) : Prop where
  stood : base.at? p = some w
  unsaid : override.at? p = none
  above : ∀ q u, q <+: p → q ≠ p → override.at? q = some u → u.isMap = true

/-- **All that an override does.**  The last two fields are about the mappings themselves: keys keep their places
and new ones follow, and a mapping of the override is taken as it is where the document has none. -/
structure Effect (base override merged : Value) : Prop where
  said : ∀ p w, override.at? p = some w → w.isMap = false → merged.at? p = some w
  kept : ∀ p w, base.Survives override p w → merged.at? p = some w
  only : ∀ p w, merged.at? p = some w → w.isMap = false →
    override.at? p = some w ∨ base.Survives override p w
  keys : ∀ p es os, base.at? p = some (.map es) → override.at? p = some (.map os) →
    ∃ fs, merged.at? p = some (.map fs) ∧ Entries.keys fs = Entries.keys es ++ (Entries.newTo es os).keys
  taken : ∀ p os, override.at? p = some (.map os) → (∀ es, base.at? p ≠ some (.map es)) →
    merged.at? p = some (.map os)

/-- Above a place that an override leaves alone it has nothing but mappings. -/
theorem Omits.isMap_above (h : v.Omits p) (hqp : q <+: p) (hne : q ≠ p) (hq : v.at? q = some w) :
    w.isMap = true := by
  induction h generalizing q with
  | missing hk =>
    cases q with
    | nil =>
      cases (at?_nil _).symm.trans hq
      rfl
    | cons l q =>
      obtain ⟨rfl, -⟩ := List.cons_prefix_cons.1 hqp
      simp [hk] at hq
  | inside hk _ ih =>
    cases q with
    | nil =>
      cases (at?_nil _).symm.trans hq
      rfl
    | cons l q =>
      obtain ⟨rfl, htail⟩ := List.cons_prefix_cons.1 hqp
      rw [at?_map_cons, hk] at hq
      exact ih htail (by simpa using hne) hq

/-- A part that survives is one that the override leaves alone. -/
theorem Survives.omits (h : base.Survives override p w) : override.Omits p := by
  rcases at?_cases override p with ⟨u, hu⟩ | homits | ⟨q, u, hqp, hne, hu, hleaf⟩
  · cases h.unsaid.symm.trans hu
  · exact homits
  · have hmap : u.isMap = true := h.above q u hqp hne hu
    rw [hleaf] at hmap
    cases hmap

theorem Omits.survives (h : override.Omits p) (hw : base.at? p = some w) : base.Survives override p w :=
  ⟨hw, h.at?_eq_none, fun _ _ hqp hne hq => h.isMap_above hqp hne hq⟩

/-- **An override has its effect on whatever it is laid over.** -/
theorem Unrepeated.effect_over (hv : v.Unrepeated) (base : Value) : Effect base v (Value.over (some base) v) := by
  have hsaid : ∀ p w, v.at? p = some w → (Value.over (some base) v).at? p = some (Value.over (base.at? p) w) :=
    fun p w hw => at?_over_of_at? (hv.unrepeatedAbove p) hw (some base)
  have homitted : ∀ p, v.Omits p → (Value.over (some base) v).at? p = base.at? p :=
    fun p hp => hp.at?_over (hv.unrepeatedAbove p) (some base)
  constructor
  case said =>
    intro p w hw hleaf
    rw [hsaid p w hw, over_of_not_isMap hleaf]
  case kept =>
    intro p w hw
    rw [homitted p hw.omits, hw.stood]
  case only =>
    intro p w hw hleaf
    rcases at?_cases v p with ⟨u, hu⟩ | homits | ⟨q, u, hqp, hne, hu, hu'⟩
    · rw [hsaid p u hu] at hw
      cases hw
      rcases over_cases (base.at? p) u with h | ⟨es, os, hes, rfl⟩
      · exact .inl (by rw [hu, h])
      · rw [hes, over_map_map] at hleaf
        cases hleaf
    · exact .inr (homits.survives (by rw [← homitted p homits, hw]))
    · -- nothing stands below what the override put in the way
      have hq : (Value.over (some base) v).at? q = some u := by rw [hsaid q u hu, over_of_not_isMap hu']
      rw [at?_eq_none_of_leaf hqp hne hq hu'] at hw
      cases hw
  case keys =>
    intro p es os hes hos
    refine ⟨Entries.merge es os, by rw [hsaid p _ hos, hes, over_map_map], ?_⟩
    cases hv.at? hos with
    | leaf hleaf => cases hleaf
    | map hunrepeated _ => exact Entries.keys_merge hunrepeated es
  case taken =>
    intro p os hos hbase
    rw [hsaid p _ hos]
    rcases over_cases (base.at? p) (.map os) with h | ⟨es, _, hes, -⟩
    · rw [h]
    · exact absurd hes (hbase es)

/-- **An override of a mapping has exactly its effect**, whether the mapping is merged with it apart or changed in
place; for the latter the merged entries are stored in the mapping itself. -/
theorem effect_of_merge (base os : Entries) (hos : (Value.map os).Unrepeated) :
    ∃ merged : Entries,
      (Value.map base).merge (.map os) = .ok (.map merged) ∧
      (Value.map base).mergeInto (.map os) = .ok (.map merged) ∧
      (base.Distinct → base.update merged = merged) ∧
      Effect (.map base) (.map os) (.map merged) := by
  refine ⟨base.merge os, rfl, rfl, fun hbase => ?_, ?_⟩
  · cases hos with
    | leaf hleaf => cases hleaf
    | map hunrepeated _ => exact Entries.update_merge hbase hunrepeated
  · have heffect := hos.effect_over (.map base)
    rwa [over_map_map] at heffect

/-- A document with a text, a list and mappings. -/
def petsDocument : Entries :=
  [(.str "openapi", .str "3.0.0"), (.str "info", .object [("title", .str "Pets"), ("contact", .str "none")]),
    (.str "tags", .list [.str "auto"]), (.str "paths", .object [])]

/-- An override with a mapping where there is a text, no mapping where there is one, and new keys. -/
def petsOverride : Entries :=
  [(.str "servers", .list []),
    (.str "info", .object [("version", .str "2"), ("contact", .object [("name", .str "Ann")])]),
    (.str "paths", .null)]

/-- The override of pets names no key twice. -/
theorem petsOverride_proper : (Value.map petsOverride).Proper := by
  have hcontact : (Value.object [("name", .str "Ann")]).Proper := .object (by decide) (by simp)
  have hinfo : (Value.object [("version", .str "2"), ("contact", .object [("name", .str "Ann")])]).Proper :=
    .object (by decide) (by simp [hcontact])
  have hall : (Value.object [("servers", .list []),
      ("info", .object [("version", .str "2"), ("contact", .object [("name", .str "Ann")])]),
      ("paths", .null)]).Proper := .object (by decide) (by simp [hinfo])
  exact hall

/-- The override laid over the document of pets. -/
theorem effect_of_merge_pets :
    ∃ merged : Entries,
      (Value.map petsDocument).mergeInto (.map petsOverride) = .ok (.map merged) ∧
      Effect (.map petsDocument) (.map petsOverride) (.map merged) ∧
      merged.keys = [.str "openapi", .str "info", .str "tags", .str "paths", .str "servers"] := by
  obtain ⟨merged, -, hinto, -, heffect⟩ := effect_of_merge petsDocument petsOverride petsOverride_proper.unrepeated
  refine ⟨merged, hinto, heffect, ?_⟩
  obtain ⟨fs, hfs, hkeys⟩ := heffect.keys [] petsDocument petsOverride (at?_nil _) (at?_nil _)
  cases (at?_nil _).symm.trans hfs
  rw [hkeys]
  decide

end Value

end RouteDoc
