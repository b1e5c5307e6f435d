import RouteDoc.Merge

/-!
# Mappings under overrides

An override changes the values of a mapping and adds keys; it never takes a key away.

* `Entries.mem_set`, `Entries.has_set` — storing one value;
* `Entries.has_merge` — laying an override over a mapping;
* `Value.HasPaths` — a document with a place for paths, which every override keeps.
-/

namespace RouteDoc

namespace Scalar

theorem same_str_iff (s : Scalar) (t : String) : s.same (.str t) = true ↔ s = .str t := by
  cases s with
  | float x => cases h : x.toInt? <;> simp [same, integer?, h]
  | _ => simp [same, integer?]

theorem str_same_iff (t : String) (s : Scalar) : (Scalar.str t).same s = true ↔ s = .str t := by
  cases s with
  | float x => cases h : x.toInt? <;> simp [same, integer?, h]
  | str u => simp [same, integer?, eq_comm (a := u)]
  | _ => simp [same, integer?]

end Scalar

namespace Key

theorem same_str_iff (k : Key) (t : String) : k.same (.str t) = true ↔ k = .str t := by
  cases k with
  | scalar s => simp [same, Scalar.sameKey, Scalar.same_str_iff]
  | tuple items => simp [same]

theorem str_same_iff (t : String) (k : Key) : (Key.str t).same k = true ↔ k = .str t := by
  cases k with
  | scalar s => simp [same, Scalar.sameKey, Scalar.str_same_iff]
  | tuple items => simp [same]

/-- Equal keys have the same text, if any. -/
theorem text?_eq_of_same {k l : Key} (h : k.same l = true) : k.text? = l.text? := by
  by_cases hk : ∃ t, k = .str t
  · obtain ⟨t, rfl⟩ := hk
    rw [(str_same_iff t l).1 h]
  · by_cases hl : ∃ t, l = .str t
    · obtain ⟨t, rfl⟩ := hl
      rw [(same_str_iff k t).1 h]
    · have none_of : ∀ {m : Key}, (¬ ∃ t, m = .str t) → m.text? = none := by
        intro m hm
        unfold text?
        split
        · next t => exact (hm ⟨t, rfl⟩).elim
        · rfl
      rw [none_of hk, none_of hl]

@[simp] theorem str_same_str (s t : String) : (Key.str s).same (.str t) = decide (s = t) := by
  rw [Bool.eq_iff_iff, str_same_iff]
  simp [eq_comm]

end Key

/-- A value replaces what was there, unless both are mappings. -/
theorem Value.over_cases (existing : Option Value) (v : Value) :
    Value.over existing v = v ∨ ∃ base os, existing = some (.map base) ∧ v = .map os := by
  cases v with
  | map os =>
    cases existing with
    | none => simp [Value.over]
    | some w => cases w <;> simp [Value.over]
  | _ => simp [Value.over]

@[simp] theorem Value.over_none (v : Value) : Value.over none v = v := by
  rcases Value.over_cases none v with h | ⟨base, os, h, -⟩
  · exact h
  · cases h

namespace Entries

variable {key key' : Key} {value : Value} {es : Entries}

/-! ### Storing a value -/

theorem has_cons (k : Key) (v : Value) (es : Entries) : has key ((k, v) :: es) = (k.same key || has key es) := by
  cases h : k.same key <;> simp [has, get?, h]

theorem has_set (h : es.has key = true) : (es.set key' value).has key = true := by
  induction es with
  | nil => cases h
  | cons e es ih =>
    obtain ⟨k, v⟩ := e
    rw [has_cons, Bool.or_eq_true] at h
    rw [set]
    split
    · rw [has_cons, Bool.or_eq_true]
      exact h
    · rw [has_cons, Bool.or_eq_true]
      exact h.imp_right ih

/-- What stands in a mapping after a value was stored. -/
theorem mem_set {k : Key} {v : Value} (h : (k, v) ∈ es.set key value) :
    (k, v) ∈ es ∨ (k.text? = key.text? ∧ v = value) := by
  induction es with
  | nil =>
    obtain ⟨rfl, rfl⟩ := Prod.mk.inj (List.mem_singleton.1 h)
    exact .inr ⟨rfl, rfl⟩
  | cons e es ih =>
    obtain ⟨l, w⟩ := e
    rw [set] at h
    split at h
    · next hs =>
      rcases List.mem_cons.1 h with h | h
      · obtain ⟨rfl, rfl⟩ := Prod.mk.inj h
        exact .inr ⟨Key.text?_eq_of_same hs, rfl⟩
      · exact .inl (List.mem_cons_of_mem _ h)
    · rcases List.mem_cons.1 h with h | h
      · exact .inl (h ▸ List.mem_cons_self)
      · exact (ih h).imp_left (List.mem_cons_of_mem _)

theorem exists_mem_of_get? (h : es.get? key = some value) : ∃ k, (k, value) ∈ es ∧ k.text? = key.text? := by
  induction es with
  | nil => cases h
  | cons e es ih =>
    obtain ⟨l, w⟩ := e
    rw [get?] at h
    split at h
    · next hs =>
      cases h
      exact ⟨l, List.mem_cons_self, Key.text?_eq_of_same hs⟩
    · obtain ⟨k, hk, ht⟩ := ih h
      exact ⟨k, List.mem_cons_of_mem _ hk, ht⟩

/-! ### Overrides -/

/-- **An override takes no key away.** -/
theorem has_merge (os : Entries) (h : es.has key = true) : (merge es os).has key = true := by
  induction os generalizing es with
  | nil => rwa [merge]
  | cons o os ih =>
    rw [merge]
    exact ih (has_set h)

theorem has_object (key : String) (members : List (String × Value)) :
    has (.str key) (members.map fun (k, v) => (.str k, v)) = true ↔ key ∈ members.map (·.1) := by
  induction members with
  | nil => simp [has, get?]
  | cons m members ih => simp [has_cons, ih, eq_comm (a := key)]

theorem get?_eq_none (h : es.has key = false) : es.get? key = none := by
  simpa [has] using h

theorem set_of_not_has (h : es.has key = false) : es.set key value = es ++ [(key, value)] := by
  induction es with
  | nil => rfl
  | cons e es ih =>
    obtain ⟨k, v⟩ := e
    rw [has_cons, Bool.or_eq_false_iff] at h
    rw [set, if_neg (by simp [h.1]), ih h.2, List.cons_append]

end Entries

/-! ### Documents with a place for paths -/

namespace Value

/-- The document is a mapping with a place for paths. -/
def HasPaths (v : Value) : Prop := ∃ es : Entries, v = .map es ∧ es.has (.str "paths") = true

namespace HasPaths

variable {v w override : Value} {route : String}

theorem openPaths (h : v.HasPaths) : v.openPaths = .ok v := by
  obtain ⟨es, rfl, hes⟩ := h
  simp only [Value.openPaths, entriesFor, bind, Except.bind, hes, if_true]

/-- What fails on such a document leaves it as it is. -/
theorem afterFailedRoute (h : v.HasPaths) : v.afterFailedRoute = v := by
  rw [Value.afterFailedRoute, h.openPaths]

theorem of_mergeInto (h : v.HasPaths) (hm : v.mergeInto override = .ok w) : w.HasPaths := by
  obtain ⟨es, rfl, hes⟩ := h
  cases override with
  | map os =>
    cases hm
    exact ⟨_, rfl, Entries.has_merge os hes⟩
  | _ => cases hm

theorem of_mergeRoute (h : v.HasPaths) (hm : v.mergeRoute route override = .ok w) : w.HasPaths := by
  obtain ⟨es, rfl, hes⟩ := h
  have hopen : (Value.map es).openPaths = .ok (.map es) := openPaths ⟨es, rfl, hes⟩
  rw [mergeRoute, hopen] at hm
  simp only [mergePath, bind, Except.bind, entriesFor] at hm
  split at hm
  · cases hm
  · split at hm
    · cases hm
    · cases hm
      exact ⟨_, rfl, Entries.has_set hes⟩

end HasPaths

end Value

end RouteDoc
