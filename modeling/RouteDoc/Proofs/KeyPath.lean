import Mathlib.Data.List.Infix
import RouteDoc.Proofs.Overlay

/-!
# Key paths

A path of keys leads through mappings to a part of a document.  For every path an override does one of three
things: it gives a value there, it leaves the place alone because some key on the way is missing, or it puts a
value that is no mapping above.  What the document holds afterwards follows in each case.

* `Value.at?` — the part at a path;
* `Value.Omits` — an override leaves a place alone;
* `Value.at?_over_of_at?`, `Value.Omits.at?_over`, `Value.at?_cases` — the three cases;
* `Value.Reordered` — equality up to the order of keys;
* `Value.reordered_over_iff` — when an override alone is left of what it was laid over.
-/

namespace RouteDoc

/-- Keys that lead from a mapping to one of its parts, through mappings. -/
abbrev KeyPath := List Key

namespace Value

variable {v w : Value} {p q : KeyPath} {existing : Option Value}

/-- The part at a path. -/
def at? : Value → KeyPath → Option Value
  | v, [] => some v
  | .map es, k :: p => (Entries.get? k es).bind fun w => at? w p
  | _, _ :: _ => none

@[simp] theorem at?_nil (v : Value) : v.at? [] = some v := by cases v <;> rfl

@[simp] theorem at?_map_cons (es : Entries) (k : Key) (p : KeyPath) :
    (Value.map es).at? (k :: p) = (es.get? k).bind fun w => w.at? p := rfl

theorem at?_cons_of_not_isMap (h : v.isMap = false) (k : Key) (p : KeyPath) : v.at? (k :: p) = none := by
  cases v with
  | map es => cases h
  | _ => rfl

/-- What stands under a key of a mapping by texts. -/
theorem get?_object {members : List (String × Value)} {k : Key}
    (h : Entries.get? k (members.map fun (k, v) => (.str k, v)) = some w) :
    ∃ m ∈ members, k = .str m.1 ∧ w = m.2 := by
  induction members with
  | nil => cases h
  | cons m members ih =>
    obtain ⟨n, v⟩ := m
    rw [List.map_cons, Entries.get?] at h
    split at h
    · next hk =>
      cases h
      exact ⟨_, List.mem_cons_self, (Key.str_same_iff n k).1 hk, rfl⟩
    · obtain ⟨m, hm, hrest⟩ := ih h
      exact ⟨m, List.mem_cons_of_mem _ hm, hrest⟩

/-- A mapping by different texts, by its entries. -/
theorem object_eq_map {members : List (String × Value)} (hkeys : (members.map (·.1)).Nodup) :
    ∃ es : Entries, Value.object members = .map es ∧ es.Distinct ∧
      ∀ k w, es.get? k = some w → ∃ m ∈ members, k = .str m.1 ∧ w = m.2 :=
  ⟨_, rfl, Entries.distinct_object hkeys, fun _ _ h => get?_object h⟩

theorem at?_append (v : Value) (p q : KeyPath) : v.at? (p ++ q) = (v.at? p).bind fun w => w.at? q := by
  induction p generalizing v with
  | nil => simp
  | cons k p ih =>
    by_cases hv : v.isMap = true
    · cases v with
      | map es => simp [ih, Option.bind_assoc]
      | _ => cases hv
    · have hv : v.isMap = false := by simpa using hv
      rw [List.cons_append, at?_cons_of_not_isMap hv, at?_cons_of_not_isMap hv]
      rfl

/-- Nothing stands below a value that is no mapping. -/
theorem at?_eq_none_of_leaf (hqp : q <+: p) (hne : q ≠ p) (hq : v.at? q = some w) (hw : w.isMap = false) :
    v.at? p = none := by
  obtain ⟨r, rfl⟩ := hqp
  cases r with
  | nil => simp at hne
  | cons k r => rw [at?_append, hq, Option.bind_some, at?_cons_of_not_isMap hw]

/-! ### Places that an override leaves alone -/

/-- On the way to the place a key is missing from a mapping. -/
inductive Omits : Value → KeyPath → Prop
  | missing {es : Entries} {k : Key} {p : KeyPath} : es.get? k = none → Omits (.map es) (k :: p)
  | inside {es : Entries} {k : Key} {w : Value} {p : KeyPath} : es.get? k = some w → Omits w p →
      Omits (.map es) (k :: p)

theorem Omits.at?_eq_none (h : v.Omits p) : v.at? p = none := by
  induction h with
  | missing hk => simp [hk]
  | inside hk _ ih => simp [hk, ih]

/-- What an override does about a place. -/
theorem at?_cases (v : Value) (p : KeyPath) :
    (∃ w, v.at? p = some w) ∨ v.Omits p ∨
      ∃ q w, q <+: p ∧ q ≠ p ∧ v.at? q = some w ∧ w.isMap = false := by
  induction p generalizing v with
  | nil => exact .inl ⟨v, at?_nil v⟩
  | cons k p ih =>
    by_cases hv : v.isMap = true
    · cases v with
      | map es =>
        cases hk : Entries.get? k es with
        | none => exact .inr (.inl (.missing hk))
        | some w =>
          rcases ih w with ⟨x, hx⟩ | hx | ⟨q, x, hqp, hne, hx, hleaf⟩
          · exact .inl ⟨x, by simpa [hk] using hx⟩
          · exact .inr (.inl (.inside hk hx))
          · refine .inr (.inr ⟨k :: q, x, List.cons_prefix_cons.2 ⟨rfl, hqp⟩, by simpa using hne, ?_, hleaf⟩)
            simpa [hk] using hx
      | _ => cases hv
    · exact .inr (.inr ⟨[], v, List.nil_prefix, by simp, at?_nil v, by simpa using hv⟩)

/-- No mapping above the place holds a key twice. -/
def UnrepeatedAbove (v : Value) (p : KeyPath) : Prop :=
  ∀ q es, q <+: p → q ≠ p → v.at? q = some (.map es) → Entries.Unrepeated es

theorem UnrepeatedAbove.head {es : Entries} {k : Key} (h : (Value.map es).UnrepeatedAbove (k :: p)) :
    es.Unrepeated :=
  h [] es List.nil_prefix (by simp) (at?_nil _)

theorem UnrepeatedAbove.tail {es : Entries} {k : Key} (h : (Value.map es).UnrepeatedAbove (k :: p))
    (hk : es.get? k = some w) : w.UnrepeatedAbove p := by
  intro q fs hqp hne hq
  refine h (k :: q) fs (List.cons_prefix_cons.2 ⟨rfl, hqp⟩) (by simpa using hne) ?_
  simpa [hk] using hq

/-- No mapping above the place names a key twice. -/
def DistinctAbove (v : Value) (p : KeyPath) : Prop :=
  ∀ q es, q <+: p → q ≠ p → v.at? q = some (.map es) → Entries.Distinct es

theorem DistinctAbove.unrepeatedAbove (h : v.DistinctAbove p) : v.UnrepeatedAbove p :=
  fun q es hqp hne hq => (h q es hqp hne hq).unrepeated

theorem DistinctAbove.cons {es : Entries} {k : Key} (hes : es.Distinct)
    (h : ∀ w, es.get? k = some w → w.DistinctAbove p) : (Value.map es).DistinctAbove (k :: p) := by
  intro q fs hqp hne hq
  cases q with
  | nil =>
    cases (at?_nil _).symm.trans hq
    exact hes
  | cons l q =>
    obtain ⟨rfl, htail⟩ := List.cons_prefix_cons.1 hqp
    rw [at?_map_cons] at hq
    obtain ⟨w, hw, hq⟩ := Option.bind_eq_some_iff.1 hq
    exact h w hw q fs htail (by simpa using hne) hq

/-- A part of a value that holds no key twice is such a value. -/
theorem Unrepeated.at? (hv : v.Unrepeated) (h : v.at? p = some w) : w.Unrepeated := by
  induction p generalizing v with
  | nil =>
    cases (at?_nil v).symm.trans h
    exact hv
  | cons k p ih =>
    cases hv with
    | leaf hleaf => simp [at?_cons_of_not_isMap hleaf] at h
    | map hes hvalues =>
      rw [at?_map_cons] at h
      obtain ⟨x, hk, hx⟩ := Option.bind_eq_some_iff.1 h
      obtain ⟨l, hin, -⟩ := Entries.exists_mem_of_get? hk
      exact ih (hvalues _ hin) hx

theorem Unrepeated.unrepeatedAbove (hv : v.Unrepeated) (p : KeyPath) : v.UnrepeatedAbove p := by
  intro q es _ _ hq
  cases hv.at? hq with
  | leaf hleaf => cases hleaf
  | map hes _ => exact hes

/-- Below a mapping that holds no key twice, an override goes on under each of its keys. -/
theorem at?_over_map_cons {os : Entries} (hos : os.Unrepeated) (existing : Option Value) (k : Key) (p : KeyPath) :
    (Value.over existing (.map os)).at? (k :: p) =
      (((os.get? k).map (Value.over ((entriesOf existing).get? k))).or ((entriesOf existing).get? k)).bind
        fun w => w.at? p := by
  rw [over_map hos, at?_map_cons, Entries.get?_merge hos]

theorem bind_at?_cons (existing : Option Value) (k : Key) (p : KeyPath) :
    (existing.bind fun x => x.at? (k :: p)) = ((entriesOf existing).get? k).bind fun w => w.at? p := by
  cases existing with
  | none => rfl
  | some x => cases x <;> rfl

/-- **What an override says at a place is laid over what stood there.** -/
theorem at?_over_of_at? (hd : v.UnrepeatedAbove p) (h : v.at? p = some w) (existing : Option Value) :
    (Value.over existing v).at? p = some (Value.over (existing.bind fun x => x.at? p) w) := by
  induction p generalizing v existing with
  | nil =>
    cases (at?_nil v).symm.trans h
    cases existing <;> simp
  | cons k p ih =>
    cases v with
    | map os =>
      rw [at?_map_cons] at h
      obtain ⟨u, hu, hw⟩ := Option.bind_eq_some_iff.1 h
      rw [at?_over_map_cons hd.head, hu, bind_at?_cons]
      exact ih (hd.tail hu) hw _
    | _ => cases h

/-- **What an override leaves alone stays as it was.** -/
theorem Omits.at?_over (h : v.Omits p) (hd : v.UnrepeatedAbove p) (existing : Option Value) :
    (Value.over existing v).at? p = existing.bind fun x => x.at? p := by
  induction h generalizing existing with
  | missing hk =>
    rw [at?_over_map_cons hd.head, hk, bind_at?_cons]
    rfl
  | inside hk _ ih =>
    rw [at?_over_map_cons hd.head, hk, bind_at?_cons]
    exact ih (hd.tail hk) _

/-! ### Equality up to the order of keys -/

/-- What a value is apart from the entries of a mapping. -/
def leaf? : Value → Option Value
  | .map _ => none
  | v => some v

/-- The two values hold the same at every path, apart from the order of keys. -/
def Reordered (v w : Value) : Prop := ∀ p, (v.at? p).map leaf? = (w.at? p).map leaf?

theorem leaf?_over (existing : Option Value) (v : Value) : (Value.over existing v).leaf? = v.leaf? := by
  rcases over_cases existing v with h | ⟨base, os, rfl, rfl⟩
  · rw [h]
  · rw [over_map_map]
    rfl

/-- **An override alone is left of what it was laid over**, up to the order of keys, exactly when nothing stood
at the places that it leaves alone. -/
theorem reordered_over_iff (hv : v.Proper) (existing : Option Value) :
    (Value.over existing v).Reordered v ↔ ∀ p, v.Omits p → (existing.bind fun x => x.at? p) = none := by
  constructor
  · intro h p hp
    have hsame := h p
    rw [hp.at?_over (hv.unrepeated.unrepeatedAbove p), hp.at?_eq_none] at hsame
    simpa using hsame
  · intro h p
    rcases at?_cases v p with ⟨w, hw⟩ | hp | ⟨q, w, hqp, hne, hw, hleaf⟩
    · rw [at?_over_of_at? (hv.unrepeated.unrepeatedAbove p) hw, hw]
      exact congrArg some (leaf?_over _ w)
    · rw [hp.at?_over (hv.unrepeated.unrepeatedAbove p), hp.at?_eq_none, h p hp]
    · have hq := at?_over_of_at? (hv.unrepeated.unrepeatedAbove q) hw existing
      rw [over_of_not_isMap hleaf] at hq
      rw [at?_eq_none_of_leaf hqp hne hq hleaf, at?_eq_none_of_leaf hqp hne hw hleaf]

end Value

end RouteDoc
