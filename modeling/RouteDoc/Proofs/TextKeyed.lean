import RouteDoc.Proofs.Overlay

/-!
# Values keyed by texts

The values that a JSON document can say in full: every mapping, at whatever depth, is keyed by texts and names none
of them twice, and nothing else has parts but lists.  Which scalars are admitted is left open.  Overrides of this
kind keep a document of this kind so.

* `Value.TextKeyed` — the values, by what is admitted as a scalar;
* `Entries.ofPairs_of_distinct` — entries with distinct keys are what storing them one by one gives;
* `Value.TextKeyed.over`, `Value.TextKeyed.mergeInto`, `Value.TextKeyed.mergeRoute` — overrides.
-/

namespace RouteDoc

/-! ### Storing entries one after another -/

namespace Entries

variable {es : Entries} {key : Key} {value : Value}

theorem distinct_nil : Distinct ([] : Entries) := ⟨List.Pairwise.nil, by simp⟩

/-- A key of the entries after a value was stored is the one that was stored, or was there. -/
theorem key_of_mem_set {e : Key × Value} (h : e ∈ es.set key value) : e.1 = key ∨ ∃ v, (e.1, v) ∈ es := by
  induction es with
  | nil =>
    rw [set, List.mem_singleton] at h
    exact .inl (by rw [h])
  | cons f es ih =>
    obtain ⟨k, v⟩ := f
    rw [set] at h
    split at h
    · rcases List.mem_cons.1 h with rfl | h
      · exact .inr ⟨v, List.mem_cons_self⟩
      · exact .inr ⟨e.2, List.mem_cons_of_mem _ h⟩
    · rcases List.mem_cons.1 h with rfl | h
      · exact .inr ⟨v, List.mem_cons_self⟩
      · rcases ih h with heq | ⟨w, hw⟩
        · exact .inl heq
        · exact .inr ⟨w, List.mem_cons_of_mem _ hw⟩

/-- Storing a value names no key twice. -/
theorem Distinct.set (h : es.Distinct) (hkey : key.same key = true) : (es.set key value).Distinct := by
  induction es with
  | nil =>
    refine ⟨List.pairwise_singleton _ _, fun e he => ?_⟩
    rw [List.mem_singleton.1 he]
    exact hkey
  | cons e es ih =>
    obtain ⟨k, v⟩ := e
    have hhead := (List.pairwise_cons.1 h.pairwise).1
    rw [Entries.set]
    split
    · refine ⟨List.pairwise_cons.2 ⟨hhead, h.tail.pairwise⟩, fun e he => ?_⟩
      rcases List.mem_cons.1 he with rfl | he
      · exact h.refl (k, v) List.mem_cons_self
      · exact h.tail.refl e he
    · next hk =>
      refine ⟨List.pairwise_cons.2 ⟨fun e he => ?_, (ih h.tail).pairwise⟩, fun e he => ?_⟩
      · rcases key_of_mem_set he with heq | ⟨w, hw⟩
        · rw [heq]
          exact Bool.eq_false_iff.2 hk
        · exact hhead (e.1, w) hw
      · rcases List.mem_cons.1 he with rfl | he
        · exact h.refl _ List.mem_cons_self
        · exact (ih h.tail).refl e he

theorem foldl_set_of_distinct {base pairs : Entries} (h : Distinct (base ++ pairs)) :
    pairs.foldl (fun es (k, v) => es.set k v) base = base ++ pairs := by
  induction pairs generalizing base with
  | nil => rw [List.foldl_nil, List.append_nil]
  | cons e pairs ih =>
    obtain ⟨k, v⟩ := e
    have hfresh : base.has k = false := by
      rw [has, Option.isSome_eq_false_iff, Option.isNone_iff_eq_none]
      have hbefore := (List.pairwise_append.1 h.pairwise).2.2
      clear ih h
      induction base with
      | nil => rfl
      | cons f base ih =>
        obtain ⟨l, w⟩ := f
        have hne : l.same k = false := hbefore _ List.mem_cons_self _ List.mem_cons_self
        rw [get?, hne]
        exact ih fun a ha b hb => hbefore a (List.mem_cons_of_mem _ ha) b hb
    have happend : base ++ (k, v) :: pairs = base ++ [(k, v)] ++ pairs := by simp
    rw [List.foldl_cons]
    dsimp only
    rw [set_of_not_has hfresh, happend, ih (happend ▸ h)]

/-- **Entries with distinct keys are what storing them one by one gives.** -/
theorem ofPairs_of_distinct (h : es.Distinct) : ofPairs es = es := by
  have hall : Distinct ([] ++ es) := h
  exact foldl_set_of_distinct hall

end Entries

namespace Value

/-! ### The values -/

/-- Every mapping is keyed by texts and names none twice, and there are no parts but lists, mappings and admitted
scalars. -/
inductive TextKeyed (p : Scalar → Prop) : Value → Prop
  | scalar {s : Scalar} : p s → TextKeyed p (.scalar s)
  | list {vs : List Value} : (∀ v ∈ vs, TextKeyed p v) → TextKeyed p (.list vs)
  | map {es : Entries} : es.Distinct → (∀ e ∈ es, ∃ name, e.1 = .str name) → (∀ e ∈ es, TextKeyed p e.2) →
    TextKeyed p (.map es)

variable {p q : Scalar → Prop} {v w override : Value} {es os : Entries} {name : String}

theorem TextKeyed.mono (h : v.TextKeyed p) (hpq : ∀ s, p s → q s) : v.TextKeyed q := by
  induction h with
  | scalar hs => exact .scalar (hpq _ hs)
  | list _ ih => exact .list ih
  | map hdistinct hkeys _ ih => exact .map hdistinct hkeys ih

theorem TextKeyed.of_mem_map (h : (Value.map es).TextKeyed p) {e : Key × Value} (he : e ∈ es) :
    (∃ name, e.1 = .str name) ∧ e.2.TextKeyed p := by
  cases h with
  | map _ hkeys hvalues => exact ⟨hkeys e he, hvalues e he⟩

theorem TextKeyed.distinct (h : (Value.map es).TextKeyed p) : es.Distinct := by
  cases h with
  | map hdistinct _ _ => exact hdistinct

theorem TextKeyed.get? (h : (Value.map es).TextKeyed p) {key : Key} (hv : es.get? key = some v) :
    v.TextKeyed p := by
  obtain ⟨k, hin, -⟩ := Entries.exists_mem_of_get? hv
  exact (h.of_mem_map hin).2

theorem textKeyed_nil : (Value.map []).TextKeyed p := .map Entries.distinct_nil (by simp) (by simp)

/-- A mapping with given texts as keys. -/
theorem TextKeyed.object {members : List (String × Value)} (hnames : (members.map (·.1)).Nodup)
    (hvalues : ∀ m ∈ members, m.2.TextKeyed p) : (Value.object members).TextKeyed p := by
  refine .map (Entries.distinct_object hnames) (fun e he => ?_) fun e he => ?_
  · obtain ⟨m, -, rfl⟩ := List.mem_map.1 he
    exact ⟨m.1, rfl⟩
  · obtain ⟨m, hm, rfl⟩ := List.mem_map.1 he
    exact hvalues m hm

/-- A mapping with one key. -/
theorem TextKeyed.single (h : v.TextKeyed p) : (Value.object [(name, v)]).TextKeyed p :=
  .object (by simp) (by simpa using h)

/-- A value stored under a text. -/
theorem TextKeyed.set (h : (Value.map es).TextKeyed p) (hv : v.TextKeyed p) :
    (Value.map (es.set (.str name) v)).TextKeyed p := by
  refine .map (h.distinct.set (by simp)) (fun e he => ?_) fun e he => ?_
  · rcases Entries.key_of_mem_set he with heq | ⟨w, hw⟩
    · exact ⟨name, heq⟩
    · exact (h.of_mem_map hw).1
  · rcases Entries.mem_set (k := e.1) (v := e.2) he with he | ⟨-, heq⟩
    · exact (h.of_mem_map he).2
    · rw [heq]
      exact hv

/-- Entries stored one after another under texts. -/
theorem textKeyed_ofPairs {pairs : List (Key × Value)} (hkeys : ∀ e ∈ pairs, ∃ name, e.1 = .str name)
    (hvalues : ∀ e ∈ pairs, e.2.TextKeyed p) : (Value.map (Entries.ofPairs pairs)).TextKeyed p := by
  have hfold : ∀ base : Entries, (Value.map base).TextKeyed p →
      (Value.map (pairs.foldl (fun es e => Entries.set e.1 e.2 es) base)).TextKeyed p := by
    induction pairs with
    | nil => exact fun base hbase => hbase
    | cons e pairs ih =>
      obtain ⟨k, v⟩ := e
      obtain ⟨name, rfl⟩ : ∃ name, k = .str name := hkeys _ List.mem_cons_self
      intro base hbase
      have hrest := ih (fun e he => hkeys e (List.mem_cons_of_mem _ he))
        fun e he => hvalues e (List.mem_cons_of_mem _ he)
      exact hrest _ (hbase.set (hvalues _ List.mem_cons_self))
  exact hfold [] textKeyed_nil

/-! ### Overrides -/

theorem textKeyed_merge {base : Entries} (hbase : (Value.map base).TextKeyed p)
    (hkeys : ∀ o ∈ os, ∃ name, o.1 = .str name)
    (hover : ∀ o ∈ os, ∀ existing : Option Value, (∀ w, existing = some w → w.TextKeyed p) →
      (Value.over existing o.2).TextKeyed p) : (Value.map (base.merge os)).TextKeyed p := by
  induction os generalizing base with
  | nil => rwa [Entries.merge]
  | cons o os ih =>
    obtain ⟨k, v⟩ := o
    obtain ⟨name, rfl⟩ : ∃ name, k = .str name := hkeys _ List.mem_cons_self
    rw [Entries.merge]
    refine ih (hbase.set (hover _ List.mem_cons_self _ fun w hw => hbase.get? hw)) ?_ ?_
    · exact fun o ho => hkeys o (List.mem_cons_of_mem _ ho)
    · exact fun o ho => hover o (List.mem_cons_of_mem _ ho)

/-- **An override keyed by texts keeps what it is laid over keyed by texts.** -/
theorem TextKeyed.over (hv : v.TextKeyed p) {existing : Option Value}
    (hexisting : ∀ w, existing = some w → w.TextKeyed p) : (Value.over existing v).TextKeyed p := by
  induction hv generalizing existing with
  | scalar hs =>
    rw [over_of_not_isMap rfl]
    exact .scalar hs
  | list hvs =>
    rw [over_of_not_isMap rfl]
    exact .list hvs
  | @map os hos hkeys hvalues ih =>
    have hmap : (Value.map os).TextKeyed p := .map hos hkeys hvalues
    rcases over_cases existing (.map os) with hover | ⟨base, os', hbase, hos'⟩
    · rw [hover]
      exact hmap
    · cases hos'
      rw [hbase, over_map_map]
      exact textKeyed_merge (hexisting _ hbase) hkeys fun o ho _ hw => ih o ho hw

theorem TextKeyed.merge {base : Entries} (hbase : (Value.map base).TextKeyed p) (hos : (Value.map os).TextKeyed p) :
    (Value.map (base.merge os)).TextKeyed p :=
  textKeyed_merge hbase (fun _ ho => (hos.of_mem_map ho).1) fun _ ho _ hw => (hos.of_mem_map ho).2.over hw

theorem TextKeyed.mergeInto (hv : v.TextKeyed p) (ho : override.TextKeyed p) (h : v.mergeInto override = .ok w) :
    w.TextKeyed p := by
  cases v with
  | map base =>
    cases override with
    | map os =>
      cases h
      exact hv.merge ho
    | _ => cases h
  | _ => cases h

end Value

end RouteDoc
