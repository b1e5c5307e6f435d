import RouteDoc.Proofs.Merging

/-!
# Laws of overlays

Keys are compared by value, and on keys that equal themselves this is an equivalence.  Once an override names
no key twice, what it leaves under a key is what it says there laid over what stood there, new keys are appended
as they are, and laying the override over once more changes nothing.

* `Key.same_comm`, `Key.same_trans` — equality of keys;
* `Entries.Distinct`, `Value.Proper` — mappings that name no key twice, at every depth;
* `Entries.get?_merge`, `Entries.merge_of_fresh` — what stands under a key after an override, and new keys;
* `Value.Proper.over_over` — an override laid over its own result.
-/

namespace RouteDoc

/-! ### Equality of keys -/

theorem Binary64.sameNumber_comm (x y : Binary64) : x.sameNumber y = y.sameNumber x := by
  rw [Bool.eq_iff_iff]
  cases x <;> cases y <;> simp only [sameNumber, Bool.or_eq_true, Bool.and_eq_true, beq_iff_eq] <;> grind

theorem Binary64.sameNumber_trans {x y z : Binary64} (hxy : x.sameNumber y = true)
    (hyz : y.sameNumber z = true) : x.sameNumber z = true := by
  cases x <;> cases y <;> simp only [sameNumber, Bool.or_eq_true, Bool.and_eq_true, beq_iff_eq] at hxy <;>
    cases z <;> simp only [sameNumber, Bool.or_eq_true, Bool.and_eq_true, beq_iff_eq] at hyz ⊢ <;> grind

theorem DateTime.same_comm (s t : DateTime) : s.same t = t.same s := by
  unfold same
  cases s.instant? <;> cases t.instant? <;> simp [Bool.beq_comm]

theorem DateTime.same_trans {s t u : DateTime} (hst : s.same t = true) (htu : t.same u = true) :
    s.same u = true := by
  unfold same at *
  cases hs : s.instant? <;> cases ht : t.instant? <;> cases hu : u.instant? <;> simp_all

namespace Scalar

/-- When two scalars are equal: they count as one number, or neither is a number and they agree by their kind. -/
theorem same_iff (s t : Scalar) : s.same t = true ↔
    (∃ a, s.integer? = some a ∧ t.integer? = some a) ∨
      (s.integer? = none ∧ t.integer? = none ∧
        ((∃ x y, s = .float x ∧ t = .float y ∧ x.sameNumber y = true) ∨
          (∃ x y, s = .dateTime x ∧ t = .dateTime y ∧ x.same y = true) ∨
          ((∀ x, s ≠ .float x) ∧ (∀ x, s ≠ .dateTime x) ∧ s = t))) := by
  unfold same
  cases hs : s.integer? with
  | some a =>
    cases ht : t.integer? with
    | some b => simp [eq_comm (a := a)]
    | none => simp
  | none =>
    cases ht : t.integer? with
    | some b => simp
    | none => cases s <;> cases t <;> simp_all

theorem same_comm (s t : Scalar) : s.same t = t.same s := by
  have swap : ∀ {s t : Scalar}, s.same t = true → t.same s = true := by
    intro s t h
    rw [same_iff] at h ⊢
    rcases h with ⟨a, hs, ht⟩ | ⟨hs, ht, h⟩
    · exact .inl ⟨a, ht, hs⟩
    · refine .inr ⟨ht, hs, ?_⟩
      rcases h with ⟨x, y, rfl, rfl, hxy⟩ | ⟨x, y, rfl, rfl, hxy⟩ | ⟨hf, hd, rfl⟩
      · exact .inl ⟨y, x, rfl, rfl, by rwa [Binary64.sameNumber_comm]⟩
      · exact .inr (.inl ⟨y, x, rfl, rfl, by rwa [DateTime.same_comm]⟩)
      · exact .inr (.inr ⟨hf, hd, rfl⟩)
  exact Bool.eq_iff_iff.2 ⟨swap, swap⟩

theorem same_trans {s t u : Scalar} (hst : s.same t = true) (htu : t.same u = true) : s.same u = true := by
  rw [same_iff] at *
  rcases hst with ⟨a, hs, ht⟩ | ⟨hs, ht, hst⟩
  · rcases htu with ⟨b, ht', hu⟩ | ⟨ht', -, -⟩
    · rw [ht] at ht'
      exact .inl ⟨a, hs, ht' ▸ hu⟩
    · simp [ht] at ht'
  · rcases htu with ⟨b, ht', -⟩ | ⟨-, hu, htu⟩
    · simp [ht] at ht'
    · refine .inr ⟨hs, hu, ?_⟩
      rcases hst with ⟨x, y, rfl, rfl, hxy⟩ | ⟨x, y, rfl, rfl, hxy⟩ | ⟨hf, hd, rfl⟩
      · rcases htu with ⟨y', z, hy, rfl, hyz⟩ | ⟨_, _, hy, _⟩ | ⟨hf, _⟩
        · cases hy
          exact .inl ⟨x, z, rfl, rfl, Binary64.sameNumber_trans hxy hyz⟩
        · cases hy
        · exact absurd rfl (hf y)
      · rcases htu with ⟨_, _, hy, _⟩ | ⟨y', z, hy, rfl, hyz⟩ | ⟨_, hd, _⟩
        · cases hy
        · cases hy
          exact .inr (.inl ⟨x, z, rfl, rfl, DateTime.same_trans hxy hyz⟩)
        · exact absurd rfl (hd y)
      · rcases htu with ⟨x, _, hx, _⟩ | ⟨x, _, hx, _⟩ | ⟨-, -, htu⟩
        · exact absurd hx (hf x)
        · exact absurd hx (hd x)
        · exact .inr (.inr ⟨hf, hd, htu⟩)

theorem sameKey_comm (s t : Scalar) : s.sameKey t = t.sameKey s := by
  rw [sameKey, sameKey, same_comm, Bool.and_comm]

/-- The common NaN equals no scalar by value. -/
theorem nan_same (s : Scalar) : (Scalar.float (.nan true)).same s = false := by
  rw [Bool.eq_false_iff]
  intro h
  rcases (same_iff _ _).1 h with ⟨a, ha, -⟩ | ⟨-, -, ⟨x, y, hx, -, hxy⟩ | ⟨x, y, hx, -⟩ | ⟨hf, -⟩⟩
  · cases ha
  · cases hx
    cases hxy
  · cases hx
  · exact hf _ rfl

theorem sameKey_trans {s t u : Scalar} (hst : s.sameKey t = true) (htu : t.sameKey u = true) :
    s.sameKey u = true := by
  simp only [sameKey, Bool.or_eq_true, Bool.and_eq_true, beq_iff_eq] at hst htu ⊢
  rcases hst with ⟨hs, rfl⟩ | hst
  · rcases htu with ⟨-, hu⟩ | htu
    · exact .inl ⟨hs, hu⟩
    · simp [nan_same] at htu
  · rcases htu with ⟨rfl, -⟩ | htu
    · rw [same_comm, nan_same] at hst
      cases hst
    · exact .inr (same_trans hst htu)

end Scalar

namespace Key

mutual

theorem same_comm : (k l : Key) → k.same l = l.same k
  | scalar s, scalar t => by rw [same, same, Scalar.sameKey_comm]
  | tuple a, tuple b => by rw [same, same, sameItems_comm a b]
  | scalar _, tuple _ => rfl
  | tuple _, scalar _ => rfl

theorem sameItems_comm : (a b : List Key) → sameItems a b = sameItems b a
  | [], [] => rfl
  | [], _ :: _ => rfl
  | _ :: _, [] => rfl
  | x :: xs, y :: ys => by rw [sameItems, sameItems, same_comm x y, sameItems_comm xs ys]

end

mutual

theorem same_trans : {k l m : Key} → k.same l = true → l.same m = true → k.same m = true
  | scalar _, scalar _, scalar _, h, h' => Scalar.sameKey_trans h h'
  | tuple _, tuple _, tuple _, h, h' => sameItems_trans h h'
  | scalar _, tuple _, _, h, _ => by cases h
  | tuple _, scalar _, _, h, _ => by cases h
  | scalar _, scalar _, tuple _, _, h' => by cases h'
  | tuple _, tuple _, scalar _, _, h' => by cases h'

theorem sameItems_trans : {a b c : List Key} → sameItems a b = true → sameItems b c = true →
    sameItems a c = true
  | [], [], [], _, _ => rfl
  | [], _ :: _, _, h, _ => by cases h
  | _ :: _, [], _, h, _ => by cases h
  | [], [], _ :: _, _, h' => by cases h'
  | _ :: _, _ :: _, [], _, h' => by cases h'
  | _ :: _, _ :: _, _ :: _, h, h' => by
    rw [sameItems, Bool.and_eq_true] at h h' ⊢
    exact ⟨same_trans h.1 h'.1, sameItems_trans h.2 h'.2⟩

end

/-- Equal keys are equal to the same keys. -/
theorem same_congr {k l : Key} (h : k.same l = true) (m : Key) : k.same m = l.same m := by
  rw [Bool.eq_iff_iff]
  exact ⟨same_trans (by rwa [same_comm]), same_trans h⟩

end Key

/-! ### Looking up and storing -/

namespace Entries

variable {key key' : Key} {value : Value} {es os base : Entries}

theorem get?_congr (h : key.same key' = true) (es : Entries) : es.get? key = es.get? key' := by
  induction es with
  | nil => rfl
  | cons e es ih =>
    obtain ⟨k, v⟩ := e
    have hk : k.same key = k.same key' := by rw [Key.same_comm, Key.same_congr h, Key.same_comm]
    simp only [get?, hk, ih]

/-- What is found under a key stands under an equal one. -/
theorem exists_same_of_get? (h : es.get? key = some value) : ∃ k, (k, value) ∈ es ∧ k.same key = true := by
  induction es with
  | nil => cases h
  | cons e es ih =>
    obtain ⟨k, v⟩ := e
    rw [get?] at h
    split at h
    · next hk =>
      cases h
      exact ⟨k, List.mem_cons_self, hk⟩
    · obtain ⟨l, hin, hl⟩ := ih h
      exact ⟨l, List.mem_cons_of_mem _ hin, hl⟩

/-- A key under which something is found is equal to itself. -/
theorem same_self_of_get? (h : es.get? key = some value) : key.same key = true := by
  obtain ⟨k, -, hk⟩ := exists_same_of_get? h
  exact Key.same_trans (by rwa [Key.same_comm]) hk

/-- Storing changes what stands under the key, and under no other one. -/
theorem get?_set (key key' : Key) (value : Value) (es : Entries) :
    (es.set key' value).get? key = if key'.same key then some value else es.get? key := by
  induction es with
  | nil => rfl
  | cons e es ih =>
    obtain ⟨k, v⟩ := e
    rw [set]
    by_cases hk : k.same key' = true
    · simp only [hk, if_true, get?, Key.same_congr hk]
      split <;> rfl
    · by_cases hkey : k.same key = true
      · -- a key equal to the one looked up differs from the one stored
        have hne : ¬ key'.same key = true := by
          intro h
          exact hk (Key.same_trans hkey (by rwa [Key.same_comm]))
        simp [hk, get?, hkey, hne]
      · simp [hk, get?, hkey, ih]

/-- Storing under the same key again replaces what was stored. -/
theorem set_set {k l : Key} (h : k.same l = true) (x y : Value) (es : Entries) : set l y (set k x es) = set k y es := by
  induction es with
  | nil =>
    show (if k.same l then [(k, y)] else (k, x) :: set l y []) = [(k, y)]
    rw [if_pos h]
  | cons e es ih =>
    obtain ⟨m, v⟩ := e
    by_cases hm : m.same k = true
    · rw [set, if_pos hm, set, if_pos (Key.same_trans hm h), set, if_pos hm]
    · have hml : ¬ m.same l = true := by
        intro hml
        exact hm (Key.same_trans hml (by rwa [Key.same_comm]))
      rw [set, if_neg hm, set, if_neg hml, ih, set, if_neg hm]

/-- Storing what stands there changes nothing. -/
theorem set_eq_self (h : es.get? key = some value) : es.set key value = es := by
  induction es with
  | nil => cases h
  | cons e es ih =>
    obtain ⟨k, v⟩ := e
    rw [get?] at h
    rw [set]
    split
    · next hk =>
      rw [if_pos hk] at h
      cases h
      rfl
    · next hk =>
      rw [if_neg hk] at h
      rw [ih h]

/-- No key stands twice. -/
def Unrepeated (es : Entries) : Prop := es.Pairwise fun a b => a.1.same b.1 = false

theorem Unrepeated.tail {e : Key × Value} (h : Unrepeated (e :: es)) : es.Unrepeated := (List.pairwise_cons.1 h).2

theorem has_eq_false_iff : es.has key = false ↔ ∀ e ∈ es, e.1.same key = false := by
  induction es with
  | nil => simp [has, get?]
  | cons e es ih =>
    obtain ⟨k, v⟩ := e
    rw [has_cons, Bool.or_eq_false_iff, ih, List.forall_mem_cons]

/-- The first key stands nowhere else. -/
theorem Unrepeated.get?_tail {k : Key} {v : Value} (h : Unrepeated ((k, v) :: es)) (hk : k.same key = true) :
    es.get? key = none := by
  refine get?_eq_none (has_eq_false_iff.2 fun e he => ?_)
  have hhead : k.same e.1 = false := (List.pairwise_cons.1 h).1 e he
  rwa [Key.same_comm, ← Key.same_congr hk]

theorem Unrepeated.get?_of_mem (h : es.Unrepeated) {e : Key × Value} (he : e ∈ es) (hrefl : e.1.same e.1 = true) :
    es.get? e.1 = some e.2 := by
  induction es with
  | nil => cases he
  | cons f es ih =>
    obtain ⟨k, v⟩ := f
    rw [get?]
    rcases List.mem_cons.1 he with rfl | hin
    · rw [if_pos hrefl]
    · have hne : k.same e.1 = false := (List.pairwise_cons.1 h).1 e hin
      rw [hne]
      exact ih h.tail hin

theorem unrepeated_iff_keys : es.Unrepeated ↔ es.keys.Pairwise fun k l => k.same l = false := by
  rw [keys, List.pairwise_map]
  rfl

/-- A key that is there keeps its place and its spelling. -/
theorem keys_set_of_has (h : es.has key = true) (value : Value) : (set key value es).keys = es.keys := by
  induction es with
  | nil => cases h
  | cons e es ih =>
    obtain ⟨k, v⟩ := e
    rw [has_cons, Bool.or_eq_true] at h
    rw [set]
    split
    · rfl
    · next hk =>
      show k :: keys (set key value es) = k :: keys es
      rw [ih (h.resolve_left hk)]

theorem Unrepeated.set (h : es.Unrepeated) (key : Key) (value : Value) : (es.set key value).Unrepeated := by
  cases hkey : es.has key with
  | true =>
    rw [unrepeated_iff_keys, keys_set_of_has hkey]
    exact unrepeated_iff_keys.1 h
  | false =>
    rw [set_of_not_has hkey]
    refine List.pairwise_append.2 ⟨h, List.pairwise_singleton _ _, fun e he f hf => ?_⟩
    rw [List.mem_singleton.1 hf]
    exact has_eq_false_iff.1 hkey e he

theorem Unrepeated.merge (h : es.Unrepeated) (os : Entries) : (es.merge os).Unrepeated := by
  induction os generalizing es with
  | nil => rwa [Entries.merge]
  | cons o os ih =>
    obtain ⟨k, v⟩ := o
    rw [Entries.merge]
    exact ih (h.set k _)

/-- No key stands twice, and every key equals itself. -/
structure Distinct (es : Entries) : Prop where
  pairwise : es.Pairwise fun a b => a.1.same b.1 = false
  refl : ∀ e ∈ es, e.1.same e.1 = true

theorem Distinct.unrepeated (h : es.Distinct) : es.Unrepeated := h.pairwise

theorem Distinct.tail {e : Key × Value} (h : Distinct (e :: es)) : es.Distinct :=
  ⟨(List.pairwise_cons.1 h.pairwise).2, fun f hf => h.refl f (List.mem_cons_of_mem _ hf)⟩

theorem Distinct.get?_of_mem (h : es.Distinct) {e : Key × Value} (he : e ∈ es) : es.get? e.1 = some e.2 :=
  h.unrepeated.get?_of_mem he (h.refl e he)

/-- A mapping with different texts as keys. -/
theorem distinct_object {members : List (String × Value)} (h : (members.map (·.1)).Nodup) :
    Distinct (members.map fun (k, v) => (.str k, v)) := by
  constructor
  · rw [List.pairwise_map]
    refine (List.pairwise_map.1 h).imp fun {a b} hab => ?_
    simpa using hab
  · intro e he
    obtain ⟨m, -, rfl⟩ := List.mem_map.1 he
    simp

/-! ### Overrides -/

/-- **What stands under a key after an override**: what the override says there, laid over what stood there. -/
theorem get?_merge (hos : os.Unrepeated) (base : Entries) (key : Key) :
    (merge base os).get? key = ((os.get? key).map (Value.over (base.get? key))).or (base.get? key) := by
  induction os generalizing base with
  | nil => rfl
  | cons o os ih =>
    obtain ⟨k, v⟩ := o
    rw [merge, ih hos.tail, get?_set, get?]
    by_cases hk : k.same key = true
    · simp [hk, hos.get?_tail hk, get?_congr hk]
    · simp [hk]

/-- New keys are appended, in the order of the override. -/
theorem merge_of_fresh (hos : os.Unrepeated) (hbase : ∀ o ∈ os, base.has o.1 = false) :
    merge base os = base ++ os := by
  induction os generalizing base with
  | nil => rw [merge, List.append_nil]
  | cons o os ih =>
    obtain ⟨k, v⟩ := o
    have hk : base.has k = false := hbase _ List.mem_cons_self
    have hrest : ∀ o ∈ os, has o.1 (base ++ [(k, v)]) = false := by
      intro o ho
      have hne : k.same o.1 = false := (List.pairwise_cons.1 hos).1 o ho
      have ho' : base.get? o.1 = none := get?_eq_none (hbase o (List.mem_cons_of_mem _ ho))
      rw [← set_of_not_has hk, has, get?_set, hne]
      simp [ho']
    rw [merge, get?_eq_none hk, Value.over_none, set_of_not_has hk, ih hos.tail hrest, List.append_assoc]
    rfl

/-- New texts are appended as keys. -/
theorem merge_fresh (base new : List (String × Value)) (hnew : (new.map (·.1)).Nodup)
    (hbase : ∀ k ∈ new.map (·.1), k ∉ base.map (·.1)) :
    merge (base.map fun (k, v) => (.str k, v)) (new.map fun (k, v) => (.str k, v))
      = (base ++ new).map fun (k, v) => (.str k, v) := by
  rw [merge_of_fresh (distinct_object hnew).unrepeated fun o ho => ?_, List.map_append]
  obtain ⟨m, hm, rfl⟩ := List.mem_map.1 ho
  rw [Bool.eq_false_iff, Ne, has_object]
  exact hbase m.1 (List.mem_map_of_mem hm)

/-- An override that says what is there already changes nothing. -/
theorem merge_eq_self (h : ∀ o ∈ os, ∃ w, es.get? o.1 = some w ∧ Value.over (some w) o.2 = w) :
    merge es os = es := by
  induction os with
  | nil => rw [merge]
  | cons o os ih =>
    obtain ⟨w, hw, hover⟩ := h o List.mem_cons_self
    rw [merge, hw, hover, set_eq_self hw]
    exact ih fun p hp => h p (List.mem_cons_of_mem _ hp)

end Entries

/-! ### Overrides that name no key twice -/

namespace Value

/-- No mapping that is reached through mappings holds a key twice. -/
inductive Unrepeated : Value → Prop
  | leaf {v : Value} : v.isMap = false → Unrepeated v
  | map {es : Entries} : es.Unrepeated → (∀ e ∈ es, Unrepeated e.2) → Unrepeated (.map es)

/-- No mapping that is reached through mappings names a key twice. -/
inductive Proper : Value → Prop
  | leaf {v : Value} : v.isMap = false → Proper v
  | map {es : Entries} : es.Distinct → (∀ e ∈ es, Proper e.2) → Proper (.map es)

@[simp] theorem proper_scalar (s : Scalar) : (Value.scalar s).Proper := .leaf rfl

@[simp] theorem proper_list (vs : List Value) : (Value.list vs).Proper := .leaf rfl

theorem Proper.unrepeated {v : Value} (hv : v.Proper) : v.Unrepeated := by
  induction hv with
  | leaf hleaf => exact .leaf hleaf
  | map hes _ ih => exact .map hes.unrepeated ih

theorem Proper.object {members : List (String × Value)} (hkeys : (members.map (·.1)).Nodup)
    (hvalues : ∀ m ∈ members, Proper m.2) : Proper (.object members) := by
  refine .map (Entries.distinct_object hkeys) fun e he => ?_
  obtain ⟨m, hm, rfl⟩ := List.mem_map.1 he
  exact hvalues m hm

theorem over_of_not_isMap {v : Value} (h : v.isMap = false) (existing : Option Value) :
    Value.over existing v = v := by
  rcases over_cases existing v with hover | ⟨base, os, -, rfl⟩
  · exact hover
  · cases h

theorem over_map_map (base os : Entries) : Value.over (some (.map base)) (.map os) = .map (base.merge os) := by
  rw [Value.over]

/-- The entries of a mapping; anything else has none. -/
def entriesOf (existing : Option Value) : Entries := (existing.bind entries?).getD []

theorem entriesOf_eq_nil {existing : Option Value} (h : ∀ es, existing ≠ some (.map es)) :
    entriesOf existing = [] := by
  cases existing with
  | none => rfl
  | some w =>
    cases w with
    | map es => exact absurd rfl (h es)
    | _ => rfl

/-- A mapping that holds no key twice is merged into the entries that were there. -/
theorem over_map {os : Entries} (hos : os.Unrepeated) (existing : Option Value) :
    Value.over existing (.map os) = .map (Entries.merge (entriesOf existing) os) := by
  rcases over_cases existing (.map os) with h | ⟨base, os', rfl, hos'⟩
  · by_cases hbase : ∃ base : Entries, existing = some (.map base)
    · obtain ⟨base, rfl⟩ := hbase
      exact over_map_map base os
    · have hentries : entriesOf existing = [] := entriesOf_eq_nil fun base h => hbase ⟨base, h⟩
      rw [h, hentries, Entries.merge_of_fresh hos fun _ _ => rfl, List.nil_append]
  · cases hos'
    exact over_map_map base os

/-- **Laying an override over its own result changes nothing.** -/
theorem Proper.over_over {v : Value} (hv : v.Proper) (existing : Option Value) :
    Value.over (some (Value.over existing v)) v = Value.over existing v := by
  induction hv generalizing existing with
  | leaf hleaf => rw [over_of_not_isMap hleaf, over_of_not_isMap hleaf]
  | @map os hos _ ih =>
    rw [over_map hos.unrepeated existing, over_map_map, Entries.merge_eq_self]
    intro o ho
    refine ⟨Value.over ((entriesOf existing).get? o.1) o.2, ?_, ih o ho _⟩
    rw [Entries.get?_merge hos.unrepeated, hos.get?_of_mem ho]
    rfl

end Value

end RouteDoc
