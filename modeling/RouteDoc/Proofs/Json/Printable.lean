import RouteDoc.Proofs.Json.Printing

/-!
# What can be written as JSON

A value can be written exactly when all its parts can: simple scalars, integers that are short enough, lists, and
mappings with keys that become names.  Dates, octets, sets, keys that are sequences, and places that hold a part
around them cannot.  Overrides that can be written keep a document so.

* `Value.isPrintable` — the values, by their parts;
* `Json.exists_render_iff` — they are those that can be written;
* `Value.isPrintable_merge` — overrides.
-/

namespace RouteDoc

/-- Can a scalar be written? -/
def Scalar.isPrintable : Scalar → Bool
  | .null | .bool _ | .float _ | .str _ => true
  | .int i => decide (Writable i)
  | .bytes _ | .date _ | .dateTime _ | .foreign _ => false

/-- Can a key be written, as the name that it becomes? -/
def Key.isPrintable (k : Key) : Bool := k.printed?.isSome

namespace Value

mutual

/-- Can all parts of a value be written? -/
def isPrintable : Value → Bool
  | scalar s => s.isPrintable
  | list vs => allPrintable vs
  | map es => membersPrintable es
  | set _ | enclosing _ => false

/-- Can all values be written? -/
def allPrintable : List Value → Bool
  | [] => true
  | v :: vs => isPrintable v && allPrintable vs

/-- Can all keys and values of a mapping be written? -/
def membersPrintable : List (Key × Value) → Bool
  | [] => true
  | (k, v) :: es => k.isPrintable && (isPrintable v && membersPrintable es)

end

theorem membersPrintable_iff (es : Entries) :
    membersPrintable es = true ↔ ∀ e ∈ es, e.1.isPrintable = true ∧ e.2.isPrintable = true := by
  induction es with
  | nil => simp [membersPrintable]
  | cons e es ih =>
    obtain ⟨k, v⟩ := e
    rw [membersPrintable, Bool.and_eq_true, Bool.and_eq_true, ih, List.forall_mem_cons, and_assoc]

theorem isPrintable_map_iff (es : Entries) :
    (Value.map es).isPrintable = true ↔ ∀ e ∈ es, e.1.isPrintable = true ∧ e.2.isPrintable = true := by
  rw [isPrintable, membersPrintable_iff]

end Value

namespace Json

/-! ### Writing -/

section Steps

variable {ε α β : Type} {x : Except ε α}

/-- Where the second step succeeds or fails whatever the first one gives, both have to succeed. -/
theorem toBool_bind {k : α → Except ε β} {b : Bool} (h : ∀ a, (k a).toBool = b) :
    (x >>= k).toBool = (x.toBool && b) := by
  cases x with
  | error e => rfl
  | ok a => exact h a

theorem toBool_bind_ok {g : α → β} : (x >>= fun a => Except.ok (g a)).toBool = x.toBool := by
  cases x <;> rfl

end Steps

theorem toBool_scalarText (s : Scalar) : (scalarText s).toBool = s.isPrintable := by
  cases s with
  | int i =>
    rw [scalarText, Scalar.isPrintable]
    cases htext : Numeral.integerText i with
    | ok cs => exact (decide_eq_true (Numeral.integerText_eq_ok.1 htext).1).symm
    | error f =>
      refine (decide_eq_false fun hi => ?_).symm
      rw [Numeral.integerText_eq_ok.2 ⟨hi, rfl⟩] at htext
      cases htext
  | _ => rfl

theorem toBool_keyText (k : Key) : (keyText k).toBool = k.isPrintable := by
  rw [Key.isPrintable]
  cases htext : keyText k with
  | ok cs =>
    obtain ⟨name, hname, -⟩ := keyText_eq_ok.1 htext
    rw [hname]
    rfl
  | error f =>
    cases hname : k.printed? with
    | none => rfl
    | some name =>
      rw [keyText_eq_ok.2 ⟨name, hname, rfl⟩] at htext
      cases htext

mutual

/-- **A value can be written exactly when all its parts can.** -/
theorem toBool_valueText : (v : Value) → (level : ℕ) → (valueText level v).toBool = v.isPrintable
  | .scalar s, level => by rw [valueText, toBool_scalarText, Value.isPrintable]
  | .list [], level => rfl
  | .list (v :: vs), level => by
    rw [valueText, Value.isPrintable, Value.allPrintable, ← toBool_valueText v (level + 1),
      ← toBool_itemsText vs (level + 1)]
    exact toBool_bind fun head => toBool_bind_ok
  | .set items, level => rfl
  | .map [], level => rfl
  | .map ((k, v) :: es), level => by
    rw [valueText, Value.isPrintable, Value.membersPrintable, ← toBool_keyText, ← toBool_valueText v (level + 1),
      ← toBool_membersText es (level + 1)]
    exact toBool_bind fun key => toBool_bind fun head => toBool_bind_ok
  | .enclosing levels, level => rfl

theorem toBool_itemsText : (vs : List Value) → (level : ℕ) → (itemsText level vs).toBool = Value.allPrintable vs
  | [], level => rfl
  | v :: vs, level => by
    rw [itemsText, Value.allPrintable, ← toBool_valueText v level, ← toBool_itemsText vs level]
    exact toBool_bind fun head => toBool_bind_ok

theorem toBool_membersText : (es : Entries) → (level : ℕ) →
    (membersText level es).toBool = Value.membersPrintable es
  | [], level => rfl
  | (k, v) :: es, level => by
    rw [membersText, Value.membersPrintable, ← toBool_keyText, ← toBool_valueText v level,
      ← toBool_membersText es level]
    exact toBool_bind fun key => toBool_bind fun head => toBool_bind_ok

end

/-- **What can be written as JSON.** -/
theorem exists_render_iff (v : Value) : (∃ text, render v = .ok text) ↔ v.isPrintable = true := by
  have htext : (render v).toBool = v.isPrintable := by
    rw [render, toBool_bind_ok, toBool_valueText]
  rw [← htext]
  cases render v <;> simp [Except.toBool]

end Json

/-! ### Overrides -/

namespace Value

variable {v : Value} {es os base : Entries} {k : Key}

theorem isPrintable_set (hes : (Value.map es).isPrintable = true) (hk : k.isPrintable = true)
    (hv : v.isPrintable = true) : (Value.map (es.set k v)).isPrintable = true := by
  rw [isPrintable_map_iff] at hes ⊢
  intro e he
  constructor
  · rcases Entries.key_of_mem_set he with heq | ⟨w, hw⟩
    · rw [heq, hk]
    · exact (hes _ hw).1
  · rcases Entries.mem_set (k := e.1) (v := e.2) he with he | ⟨-, heq⟩
    · exact (hes e he).2
    · rw [heq, hv]

theorem isPrintable_get? (hes : (Value.map es).isPrintable = true) (h : es.get? k = some v) :
    v.isPrintable = true := by
  obtain ⟨l, hl, -⟩ := Entries.exists_mem_of_get? h
  exact ((isPrintable_map_iff es).1 hes _ hl).2

mutual

/-- **An override that can be written keeps a document so.** -/
theorem isPrintable_merge : (os base : Entries) → (Value.map base).isPrintable = true →
    (Value.map os).isPrintable = true → (Value.map (Entries.merge base os)).isPrintable = true
  | [], base, hbase, _ => by rwa [Entries.merge]
  | (k, v) :: os, base, hbase, hos => by
    obtain ⟨⟨hk, hv⟩, hrest⟩ := List.forall_mem_cons.1 ((isPrintable_map_iff _).1 hos)
    rw [Entries.merge]
    refine isPrintable_merge os _ (isPrintable_set hbase hk ?_) ((isPrintable_map_iff os).2 hrest)
    exact isPrintable_over v (base.get? k) (fun w hw => isPrintable_get? hbase hw) hv

theorem isPrintable_over : (v : Value) → (existing : Option Value) →
    (∀ w, existing = some w → w.isPrintable = true) → v.isPrintable = true →
    (Value.over existing v).isPrintable = true
  | .map os, existing, hexisting, hv => by
    rcases over_cases existing (.map os) with hover | ⟨base, os', hbase, hos⟩
    · rwa [hover]
    · cases hos
      rw [hbase, over_map_map]
      exact isPrintable_merge os base (hexisting _ hbase) hv
  | .scalar _, existing, _, hv | .list _, existing, _, hv | .set _, existing, _, hv
  | .enclosing _, existing, _, hv => by rwa [over_of_not_isMap rfl]

end

end Value

end RouteDoc
