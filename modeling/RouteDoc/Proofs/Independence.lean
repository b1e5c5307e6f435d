import RouteDoc.Proofs.Combination

/-!
# Overrides in either order

Two overrides are compatible when both have mappings under every key that they share, and these are compatible
again.  Such overrides can be laid over a document in either order: whatever the document has under a shared key,
a mapping, another value or nothing, the same mapping is left there.  Only keys that the document does not have
follow in the order in which the overrides bring them, and a key that both bring is spelled as the first has it.

An override is laid over a document entry by entry, so the question comes down to two entries.

* `Value.Rearranged` — equality up to the order of keys, at every level;
* `Value.over_congr`, `Entries.merge_congr` — overrides respect it;
* `Entries.put_put` — an entry of one override and one of another, in either order;
* `Entries.merge_merge_of_commute` — two overrides in either order, if their entries can be exchanged;
* `Value.merge_in_either_order` — compatible overrides of a mapping.
-/

namespace RouteDoc

namespace Key

variable {k l m : Key}

/-- The same key, in one spelling or in two. -/
def Matches (k l : Key) : Prop := k = l ∨ k.same l = true

/-- Matching keys are equal to the same keys. -/
theorem Matches.same_eq (h : k.Matches l) (m : Key) : k.same m = l.same m := by
  rcases h with rfl | h
  · rfl
  · exact same_congr h m

/-- Different keys are not both equal to a third one. -/
theorem same_eq_false_of_same (hne : k.same l = false) (h : k.same m = true) : l.same m = false := by
  rw [Bool.eq_false_iff]
  intro hl
  have hkl : k.same l = true := same_trans h (by rwa [same_comm])
  rw [hne] at hkl
  cases hkl

end Key

namespace Value

variable {u v w x y : Value} {a b c : Option Value} {es fs gs os : Entries}

/-! ### Equality up to the order of keys at every level -/

/-- **The two values are the same up to the order of keys**, at every level of mappings.  Neighbours trade places
only where their keys differ; lists and other values stay as they are. -/
inductive Rearranged : Value → Value → Prop
  | refl (v : Value) : Rearranged v v
  | swap {e f : Key × Value} (es : Entries) (hne : e.1.same f.1 = false) :
      Rearranged (.map (e :: f :: es)) (.map (f :: e :: es))
  | cons {k l : Key} {v w : Value} {es fs : Entries} (hkey : k.Matches l) (hvalue : Rearranged v w)
      (hrest : Rearranged (.map es) (.map fs)) : Rearranged (.map ((k, v) :: es)) (.map ((l, w) :: fs))
  | trans {u v w : Value} (huv : Rearranged u v) (hvw : Rearranged v w) : Rearranged u w

theorem rel_refl (a : Option Value) : Option.Rel Rearranged a a := by
  cases a with
  | none => exact .none
  | some v => exact .some (.refl v)

theorem rel_trans (hab : Option.Rel Rearranged a b) (hbc : Option.Rel Rearranged b c) :
    Option.Rel Rearranged a c := by
  cases hab with
  | none => exact hbc
  | some huv =>
    cases hbc with
    | some hvw => exact .some (huv.trans hvw)

/-- Under every key, values that are the same up to the order of keys hold such values. -/
theorem Rearranged.get? (h : v.Rearranged w) (key : Key) :
    Option.Rel Rearranged ((entriesOf (some v)).get? key) ((entriesOf (some w)).get? key) := by
  induction h with
  | refl v => exact rel_refl _
  | @swap e f es hne =>
    obtain ⟨k, x⟩ := e
    obtain ⟨l, y⟩ := f
    show Option.Rel Rearranged (Entries.get? key ((k, x) :: (l, y) :: es)) (Entries.get? key ((l, y) :: (k, x) :: es))
    by_cases hk : k.same key = true
    · have hl : ¬ l.same key = true := by simp [Key.same_eq_false_of_same hne hk]
      simp only [Entries.get?, if_pos hk, if_neg hl]
      exact rel_refl _
    · simp only [Entries.get?, if_neg hk]
      exact rel_refl _
  | @cons k l v w es fs hkey hvalue _ _ ih =>
    show Option.Rel Rearranged (Entries.get? key ((k, v) :: es)) (Entries.get? key ((l, w) :: fs))
    rw [Entries.get?, Entries.get?, hkey.same_eq]
    split
    · exact .some hvalue
    · exact ih
  | trans _ _ ih ih' => exact rel_trans ih ih'

theorem Rearranged.leaf?_eq (h : v.Rearranged w) : v.leaf? = w.leaf? := by
  induction h with
  | refl v => rfl
  | swap es hne => rfl
  | cons hkey hvalue hrest => rfl
  | trans _ _ ih ih' => rw [ih, ih']

theorem Rearranged.isMap_eq (h : v.Rearranged w) : v.isMap = w.isMap := by
  have hleaf : ∀ v : Value, v.isMap = v.leaf?.isNone := fun v => by cases v <;> rfl
  rw [hleaf, hleaf, h.leaf?_eq]

/-! ### Storing and laying over -/

theorem Rearranged.append (es : Entries) (h : Rearranged (.map fs) (.map gs)) :
    Rearranged (.map (es ++ fs)) (.map (es ++ gs)) := by
  induction es with
  | nil => exact h
  | cons e es ih => exact .cons (.inl rfl) (.refl e.2) ih

/-- Such values stored under matching keys leave such mappings. -/
theorem Rearranged.set_value {k l : Key} (hkey : k.Matches l) (h : x.Rearranged y) (es : Entries) :
    Rearranged (.map (es.set k x)) (.map (es.set l y)) := by
  induction es with
  | nil => exact .cons hkey h (.refl _)
  | cons e es ih =>
    obtain ⟨m, u⟩ := e
    have hm : m.same k = m.same l := by rw [Key.same_comm, hkey.same_eq, Key.same_comm]
    rw [Entries.set, Entries.set, hm]
    split
    · exact .cons (.inl rfl) h (.refl _)
    · exact .cons (.inl rfl) (.refl u) ih

/-- A value stored in such mappings leaves such mappings. -/
theorem Rearranged.set (h : v.Rearranged w) (key : Key) (x : Value) :
    Rearranged (.map ((entriesOf (some v)).set key x)) (.map ((entriesOf (some w)).set key x)) := by
  induction h with
  | refl v => exact .refl _
  | @swap e f es hne =>
    obtain ⟨k, y⟩ := e
    obtain ⟨l, z⟩ := f
    show Rearranged (.map (Entries.set key x ((k, y) :: (l, z) :: es)))
      (.map (Entries.set key x ((l, z) :: (k, y) :: es)))
    by_cases hk : k.same key = true
    · have hl : ¬ l.same key = true := by simp [Key.same_eq_false_of_same hne hk]
      simp only [Entries.set, if_pos hk, if_neg hl]
      exact .swap es hne
    · simp only [Entries.set, if_neg hk]
      split
      · exact .swap es hne
      · exact .swap _ hne
  | @cons k l v w es fs hkey hvalue hrest _ ih =>
    show Rearranged (.map (Entries.set key x ((k, v) :: es))) (.map (Entries.set key x ((l, w) :: fs)))
    rw [Entries.set, Entries.set, hkey.same_eq]
    split
    · exact .cons hkey (.refl x) hrest
    · exact .cons hkey hvalue ih
  | trans _ _ ih ih' => exact ih.trans ih'

end Value

namespace Entries

/-- An entry of an override laid over a mapping. -/
def put (es : Entries) (o : Key × Value) : Entries := es.set o.1 (Value.over (es.get? o.1) o.2)

theorem merge_cons (es : Entries) (o : Key × Value) (os : Entries) : merge es (o :: os) = merge (es.put o) os := by
  rw [merge]
  rfl

end Entries

namespace Value

mutual

/-- An override leaves values that are the same up to the order of keys where there were such values. -/
theorem over_congr {a b : Option Value} (h : Option.Rel Rearranged a b) :
    (o : Value) → Rearranged (Value.over a o) (Value.over b o)
  | .map os => by
    cases h with
    | none => exact .refl _
    | @some v w hvw =>
      by_cases hv : v.isMap = true
      · have hw : w.isMap = true := hvw.isMap_eq ▸ hv
        cases v with
        | map es =>
          cases w with
          | map fs =>
            rw [over_map_map, over_map_map]
            exact merge_congr hvw os
          | _ => cases hw
        | _ => cases hv
      · have hv : v.isMap = false := by simpa using hv
        have hw : w.isMap = false := hvw.isMap_eq ▸ hv
        rw [over_leaf hv, over_leaf hw]
        exact .refl _
  | .scalar s => .refl _
  | .list items => .refl _
  | .set items => .refl _
  | .enclosing n => .refl _

/-- So do the entries of an override, one after another. -/
theorem merge_congr {es fs : Entries} (h : Rearranged (.map es) (.map fs)) :
    (os : Entries) → Rearranged (.map (es.merge os)) (.map (fs.merge os))
  | [] => by rwa [Entries.merge, Entries.merge]
  | (k, v) :: os => by
    have hvalue : Rearranged (Value.over (es.get? k) v) (Value.over (fs.get? k) v) := over_congr (h.get? k) v
    rw [Entries.merge, Entries.merge]
    exact merge_congr ((h.set k _).trans (.set_value (.inl rfl) hvalue fs)) os

end

/-! ### Entries of two overrides -/

/-- Two entries of overrides can be exchanged: under one key, their values leave the same in either order. -/
def Commute (o g : Key × Value) : Prop :=
  o.1.same g.1 = true → ∀ existing,
    Rearranged (Value.over (some (Value.over existing o.2)) g.2) (Value.over (some (Value.over existing g.2)) o.2)

end Value

namespace Entries

open Value

variable {o g : Key × Value} {es os gs : Entries}

/-- New keys come in the order in which they are stored. -/
theorem set_set_of_new {k l : Key} (hne : k.same l = false) (hk : has k es = false) (hl : has l es = false)
    (x y : Value) : set l y (set k x es) = es ++ [(k, x), (l, y)] := by
  have hl' : has l (set k x es) = false := by
    rw [has, get?_set, hne]
    exact hl
  rw [set_of_not_has hl', set_of_not_has hk, List.append_assoc]
  rfl

/-- **Entries with different keys can be exchanged.**  Only if both keys are new does their order show. -/
theorem put_put_of_ne (hne : o.1.same g.1 = false) (es : Entries) :
    Rearranged (.map ((es.put o).put g)) (.map ((es.put g).put o)) := by
  obtain ⟨k, v⟩ := o
  obtain ⟨l, w⟩ := g
  have hne' : l.same k = false := by rwa [Key.same_comm]
  -- neither entry changes what the other one is laid over
  have hl : (es.set k (Value.over (es.get? k) v)).get? l = es.get? l := by rw [get?_set, hne]; rfl
  have hk : (es.set l (Value.over (es.get? l) w)).get? k = es.get? k := by rw [get?_set, hne']; rfl
  rw [put, put, put, put, hl, hk]
  cases hhas : has k es with
  | true =>
    rw [set_comm hne hhas]
    exact .refl _
  | false =>
    cases hhas' : has l es with
    | true =>
      rw [set_comm hne' hhas']
      exact .refl _
    | false =>
      rw [set_set_of_new hne hhas hhas', set_set_of_new hne' hhas' hhas]
      exact .append es (.swap [] hne)

/-- **Entries with one key can be exchanged if their values can.** -/
theorem put_put_of_same (hkey : o.1.same g.1 = true) (hvalues : Commute o g) (es : Entries) :
    Rearranged (.map ((es.put o).put g)) (.map ((es.put g).put o)) := by
  obtain ⟨k, v⟩ := o
  obtain ⟨l, w⟩ := g
  have hkey' : l.same k = true := by rwa [Key.same_comm]
  have hl : (es.set k (Value.over (es.get? k) v)).get? l = some (Value.over (es.get? k) v) := by
    rw [get?_set, if_pos hkey]
  have hk : (es.set l (Value.over (es.get? l) w)).get? k = some (Value.over (es.get? k) w) := by
    rw [get?_set, if_pos hkey', get?_congr hkey]
  rw [put, put, put, put, hl, hk, set_set hkey, set_set hkey']
  exact .set_value (.inr hkey) (hvalues hkey _) es

theorem put_put (h : Commute o g) (es : Entries) :
    Rearranged (.map ((es.put o).put g)) (.map ((es.put g).put o)) := by
  cases hkey : o.1.same g.1 with
  | false => exact put_put_of_ne hkey es
  | true => exact put_put_of_same hkey h es

/-- An entry can be laid over a mapping before an override as well as after it. -/
theorem put_merge (h : ∀ o ∈ os, Commute o g) (es : Entries) :
    Rearranged (.map ((es.merge os).put g)) (.map ((es.put g).merge os)) := by
  induction os generalizing es with
  | nil =>
    rw [merge, merge]
    exact .refl _
  | cons o os ih =>
    rw [merge_cons, merge_cons]
    have hlater := ih (fun p hp => h p (List.mem_cons_of_mem _ hp)) (es.put o)
    exact hlater.trans (merge_congr (put_put (h o List.mem_cons_self) es) os)

/-- **Overrides can be laid over a mapping in either order** if their entries can be exchanged. -/
theorem merge_merge_of_commute (h : ∀ o ∈ os, ∀ g ∈ gs, Commute o g) (es : Entries) :
    Rearranged (.map ((es.merge os).merge gs)) (.map ((es.merge gs).merge os)) := by
  induction gs generalizing es with
  | nil =>
    rw [merge, merge]
    exact .refl _
  | cons g gs ih =>
    rw [merge_cons, merge_cons]
    have hfirst := put_merge (fun o ho => h o ho g List.mem_cons_self) es
    exact (merge_congr hfirst gs).trans (ih (fun o ho p hp => h o ho p (List.mem_cons_of_mem _ hp)) (es.put g))

end Entries

/-! ### Compatible overrides -/

namespace Value

/-- Two mappings that hold, under every key which they share, mappings that are again compatible. -/
inductive Compatible : Value → Value → Prop
  | map {es fs : Entries}
      (shared : ∀ k v w, es.get? k = some v → fs.get? k = some w → Compatible v w) : Compatible (.map es) (.map fs)

/-- Mappings by texts are compatible if what they have under the same texts is. -/
theorem Compatible.object {ms ns : List (String × Value)}
    (h : ∀ m ∈ ms, ∀ n ∈ ns, m.1 = n.1 → m.2.Compatible n.2) : (Value.object ms).Compatible (.object ns) := by
  refine .map fun k v w hv hw => ?_
  obtain ⟨m, hm, rfl, rfl⟩ := get?_object hv
  obtain ⟨n, hn, hkey, rfl⟩ := get?_object hw
  have hname : m.1 = n.1 := by simpa using hkey
  exact h m hm n hn hname

/-- **Compatible values can be laid over a place in either order**, whatever stands there. -/
theorem over_comm (h : v.Compatible w) (hv : v.Unrepeated) (hw : w.Unrepeated) (existing : Option Value) :
    Rearranged (Value.over (some (Value.over existing v)) w) (Value.over (some (Value.over existing w)) v) := by
  induction h generalizing existing with
  | @map os gs _ ih =>
    cases hv with
    | leaf hleaf => cases hleaf
    | map hos hvalues =>
      cases hw with
      | leaf hleaf => cases hleaf
      | map hgs hvalues' =>
        -- over anything but a mapping, the first override is taken as it is: the same as merging it into none
        rw [over_map hos existing, over_map hgs existing, over_map_map, over_map_map]
        refine Entries.merge_merge_of_commute (fun o ho g hg hkey existing => ?_) _
        have hself : o.1.same o.1 = true := Key.same_trans hkey (by rwa [Key.same_comm])
        have hself' : g.1.same g.1 = true := Key.same_trans (by rwa [Key.same_comm]) hkey
        have hget : gs.get? o.1 = some g.2 := by rw [Entries.get?_congr hkey, hgs.get?_of_mem hg hself']
        exact ih o.1 o.2 g.2 (hos.get?_of_mem ho hself) hget (hvalues o ho) (hvalues' g hg) existing

/-- **Compatible overrides of a mapping can come in either order**, merged apart or in place. -/
theorem merge_in_either_order (base os gs : Entries) (hos : (Value.map os).Unrepeated)
    (hgs : (Value.map gs).Unrepeated) (h : (Value.map os).Compatible (.map gs)) :
    ∃ merged merged' : Value,
      ((Value.map base).merge (.map os) >>= fun v => v.merge (.map gs)) = .ok merged ∧
      ((Value.map base).mergeInto (.map os) >>= fun v => v.mergeInto (.map gs)) = .ok merged ∧
      ((Value.map base).merge (.map gs) >>= fun v => v.merge (.map os)) = .ok merged' ∧
      ((Value.map base).mergeInto (.map gs) >>= fun v => v.mergeInto (.map os)) = .ok merged' ∧
      merged.Rearranged merged' := by
  have hboth := over_comm h hos hgs (some (.map base))
  rw [over_map_map, over_map_map, over_map_map, over_map_map] at hboth
  exact ⟨_, _, rfl, rfl, rfl, rfl, hboth⟩

/-- A second override of pets that shares a mapping with the first one, and a mapping in it. -/
def petsContact : Entries :=
  [(.str "info", .object [("contact", .object [("email", .str "ann@pets.test")]), ("license", .str "MIT")]),
    (.str "security", .list [])]

theorem petsContact_unrepeated : (Value.map petsContact).Unrepeated := by
  have hcontact : (Value.object [("email", .str "ann@pets.test")]).Proper := .object (by decide) (by simp)
  have hinfo : (Value.object [("contact", .object [("email", .str "ann@pets.test")]),
      ("license", .str "MIT")]).Proper := .object (by decide) (by simp [hcontact])
  have hall : (Value.object [("info", .object [("contact", .object [("email", .str "ann@pets.test")]),
      ("license", .str "MIT")]), ("security", .list [])]).Proper := .object (by decide) (by simp [hinfo])
  exact hall.unrepeated

theorem petsContact_compatible : (Value.map petsOverride).Compatible (.map petsContact) := by
  have hcontact : (Value.object [("name", .str "Ann")]).Compatible (.object [("email", .str "ann@pets.test")]) :=
    .object (by simp)
  have hinfo : (Value.object [("version", .str "2"), ("contact", .object [("name", .str "Ann")])]).Compatible
      (.object [("contact", .object [("email", .str "ann@pets.test")]), ("license", .str "MIT")]) :=
    .object (by simp [hcontact])
  have hall : (Value.object [("servers", .list []),
      ("info", .object [("version", .str "2"), ("contact", .object [("name", .str "Ann")])]),
      ("paths", .null)]).Compatible
      (.object [("info", .object [("contact", .object [("email", .str "ann@pets.test")]), ("license", .str "MIT")]),
        ("security", .list [])]) := .object (by simp [hinfo])
  exact hall

/-- Both overrides of pets in either order, where the document has a text in place of the inner mapping. -/
theorem merge_in_either_order_pets :
    ∃ merged merged' : Value,
      ((Value.map petsDocument).merge (.map petsOverride) >>= fun v => v.merge (.map petsContact)) = .ok merged ∧
      ((Value.map petsDocument).merge (.map petsContact) >>= fun v => v.merge (.map petsOverride)) = .ok merged' ∧
      merged.Rearranged merged' := by
  obtain ⟨merged, merged', hmerged, -, hmerged', -, h⟩ := merge_in_either_order petsDocument petsOverride petsContact
    petsOverride_proper.unrepeated petsContact_unrepeated petsContact_compatible
  exact ⟨merged, merged', hmerged, hmerged', h⟩

end Value

end RouteDoc
