import RouteDoc.Proofs.Overlay
import RouteDoc.Sharing

/-!
# Places of a value

A place leads to a part of a value, by keys and indices.  Places of one part are one place, or neither lies in the
other, since nothing is a part of itself; so another part can be put in several places of one part at once.

* `Place.Apart` — neither of two places lies in the other;
* `Value.part?` — the part at a place;
* `Value.Traceable` — values in which steps lead to every part;
* `Value.apart_of_part?_eq` — places of one part;
* `Value.part?_putAll_of_mem` — a part that is put in several places.
-/

namespace RouteDoc

/-! ### Places -/

theorem Step.same_comm (a b : Step) : a.same b = b.same a := by
  cases a with
  | key k =>
    cases b with
    | key l => exact Key.same_comm k l
    | item j => rfl
  | item i =>
    cases b with
    | key l => rfl
    | item j => exact Bool.beq_comm

theorem Step.same_congr {a b : Step} (h : a.same b = true) (c : Step) : a.same c = b.same c := by
  cases a with
  | key k =>
    cases b with
    | key l =>
      cases c with
      | key m => exact Key.same_congr h m
      | item n => rfl
    | item j => cases h
  | item i =>
    cases b with
    | key l => cases h
    | item j =>
      obtain rfl : i = j := by simpa [Step.same] using h
      rfl

namespace Place

variable {p q r : Place}

/-- Neither place lies in the other, nor are they one. -/
def Apart (p q : Place) : Prop := p.below? q = none ∧ q.below? p = none

theorem Apart.symm (h : p.Apart q) : q.Apart p := ⟨h.2, h.1⟩

@[simp] theorem below?_nil (q : Place) : below? [] q = some q := by
  cases q <;> rfl

theorem below?_cons_cons (a b : Step) (p q : Place) :
    below? (a :: p) (b :: q) = if a.same b then p.below? q else none := rfl

theorem apart_cons_iff {a b : Step} (h : a.same b = true) : Apart (a :: p) (b :: q) ↔ p.Apart q := by
  have hback : b.same a = true := by rw [Step.same_comm, h]
  simp [Apart, below?_cons_cons, h, hback]

/-- The places below one of two equal places are those below the other. -/
theorem below?_congr (h : p.below? q = some []) (r : Place) : p.below? r = q.below? r := by
  induction p generalizing q r with
  | nil =>
    obtain rfl : q = [] := by simpa using h
    rfl
  | cons a p ih =>
    cases q with
    | nil => cases h
    | cons b q =>
      rw [below?_cons_cons] at h
      split at h
      · next hab =>
        cases r with
        | nil => rfl
        | cons c r => rw [below?_cons_cons, below?_cons_cons, Step.same_congr hab, ih h]
      · cases h

theorem below?_eq_some_nil_comm : p.below? q = some [] ↔ q.below? p = some [] := by
  have hstep : ∀ {p q : Place}, p.below? q = some [] → q.below? p = some [] := by
    intro p q h
    induction p generalizing q with
    | nil =>
      obtain rfl : q = [] := by simpa using h
      rfl
    | cons a p ih =>
      cases q with
      | nil => cases h
      | cons b q =>
        rw [below?_cons_cons] at h ⊢
        rw [Step.same_comm]
        split at h
        · next hab => rw [if_pos hab, ih h]
        · cases h
  exact ⟨hstep, hstep⟩

/-- Whether places lie above a place does not depend on which of two equal places it is. -/
theorem below?_congr_right (h : p.below? q = some []) (r : Place) : r.below? p = none ↔ r.below? q = none := by
  induction r generalizing p q with
  | nil => simp
  | cons c r ih =>
    cases p with
    | nil =>
      obtain rfl : q = [] := by simpa using h
      rfl
    | cons a p =>
      cases q with
      | nil => cases h
      | cons b q =>
        rw [below?_cons_cons] at h
        split at h
        · next hab =>
          have hsame : c.same a = c.same b := by rw [Step.same_comm, Step.same_congr hab, Step.same_comm]
          rw [below?_cons_cons, below?_cons_cons, hsame]
          split
          · exact ih h
          · rfl
        · cases h

/-- What is apart from a place is apart from the places below it. -/
theorem Apart.below?_append (h : p.Apart q) (rest : Place) : p.below? (q ++ rest) = none := by
  induction p generalizing q with
  | nil => simp [Apart] at h
  | cons a p ih =>
    cases q with
    | nil => simp [Apart] at h
    | cons b q =>
      rw [List.cons_append, below?_cons_cons]
      split
      · next hab => exact ih ((apart_cons_iff hab).1 h)
      · rfl

end Place

namespace Value

variable {p q : Place} {u v w : Value}

/-- The part at a place. -/
def part? : Place → Value → Option Value
  | [], v => some v
  | .key k :: place, map entries => (Entries.get? k entries).bind (part? place)
  | .item index :: place, list items => items[index]?.bind (part? place)
  | _ :: _, _ => none

@[simp] theorem part?_nil (v : Value) : v.part? [] = some v := by cases v <;> rfl

/-- Steps lead to every part: all keys are equal to themselves, and nothing stands inside of itself. -/
inductive Traceable : Value → Prop
  | scalar (s : Scalar) : Traceable (.scalar s)
  | list {items : List Value} : (∀ v ∈ items, Traceable v) → Traceable (.list items)
  | set (keys : List Key) : Traceable (.set keys)
  | map {es : Entries} : (∀ e ∈ es, e.1.same e.1 = true) → (∀ e ∈ es, Traceable e.2) → Traceable (.map es)

theorem Traceable.of_mem {items : List Value} (h : (Value.list items).Traceable) (hv : v ∈ items) : v.Traceable := by
  cases h with
  | list h => exact h v hv

theorem Traceable.of_entry {es : Entries} {e : Key × Value} (h : (Value.map es).Traceable) (he : e ∈ es) :
    e.1.same e.1 = true ∧ e.2.Traceable := by
  cases h with
  | map hkeys hvalues => exact ⟨hkeys e he, hvalues e he⟩

/-- Equal first steps lead to one part. -/
theorem part?_cons_congr {a b : Step} (h : a.same b = true) (p : Place) (v : Value) :
    v.part? (a :: p) = v.part? (b :: p) := by
  cases a with
  | key k =>
    cases b with
    | key l =>
      cases v with
      | map es => rw [part?, part?, Entries.get?_congr h]
      | _ => rfl
    | item j => cases h
  | item i =>
    cases b with
    | key l => cases h
    | item j =>
      obtain rfl : i = j := by simpa [Step.same] using h
      rfl

/-- A first step leads to a part, or nowhere. -/
theorem part?_cons (a : Step) (p : Place) (v : Value) : v.part? (a :: p) = (v.part? [a]).bind (part? p) := by
  cases a with
  | key k =>
    cases v with
    | map es => simp [part?]
    | _ => rfl
  | item i =>
    cases v with
    | list items => simp [part?]
    | _ => rfl

/-- The part at a place is found by way of every place above it. -/
theorem part?_of_below? {r : Place} (h : p.below? q = some r) : v.part? q = (v.part? p).bind (part? r) := by
  induction p generalizing q v with
  | nil =>
    obtain rfl : q = r := by simpa using h
    simp
  | cons a p ih =>
    cases q with
    | nil => cases h
    | cons b q =>
      rw [Place.below?_cons_cons] at h
      split at h
      · next hab =>
        rw [← part?_cons_congr hab, part?_cons a q, part?_cons a p, Option.bind_assoc]
        exact Option.bind_congr fun x _ => ih h
      · cases h

theorem part?_congr (h : p.below? q = some []) (v : Value) : v.part? q = v.part? p := by
  rw [part?_of_below? h]
  cases v.part? p <;> simp

/-- A step leads to a smaller part. -/
theorem sizeOf_lt_of_part?_singleton {a : Step} (h : v.part? [a] = some w) : sizeOf w < sizeOf v := by
  cases a with
  | key k =>
    cases v with
    | map es =>
      obtain ⟨u, hu, hw⟩ := Option.bind_eq_some_iff.1 h
      obtain rfl : u = w := by simpa using hw
      obtain ⟨l, hin, -⟩ := Entries.exists_mem_of_get? hu
      have hentry := List.sizeOf_lt_of_mem hin
      simp only [Prod.mk.sizeOf_spec, map.sizeOf_spec] at hentry ⊢
      omega
    | _ => cases h
  | item i =>
    cases v with
    | list items =>
      obtain ⟨u, hu, hw⟩ := Option.bind_eq_some_iff.1 h
      obtain rfl : u = w := by simpa using hw
      have hitem := List.sizeOf_lt_of_mem (List.mem_of_getElem? hu)
      simp only [list.sizeOf_spec]
      omega
    | _ => cases h

/-- Nothing is a part of itself. -/
theorem sizeOf_lt_of_part? {a : Step} (h : v.part? (a :: p) = some w) : sizeOf w < sizeOf v := by
  induction p generalizing a v with
  | nil => exact sizeOf_lt_of_part?_singleton h
  | cons b p ih =>
    rw [part?_cons] at h
    obtain ⟨u, hu, hw⟩ := Option.bind_eq_some_iff.1 h
    exact Nat.lt_trans (ih hw) (sizeOf_lt_of_part?_singleton hu)

/-- A step that leads somewhere is equal to itself, which one by a computed NaN is not. -/
theorem same_self_of_part? {a : Step} (h : v.part? [a] = some w) : a.same a = true := by
  cases a with
  | key k =>
    cases v with
    | map es =>
      obtain ⟨u, hu, -⟩ := Option.bind_eq_some_iff.1 h
      exact Entries.same_self_of_get? hu
    | _ => cases h
  | item i => exact beq_self_eq_true i

/-- A place that leads somewhere is at itself, which one by way of a computed NaN is not. -/
theorem below?_self (h : v.part? p = some w) : Place.below? p p = some [] := by
  induction p generalizing v with
  | nil => rfl
  | cons a p ih =>
    rw [part?_cons] at h
    obtain ⟨u, hu, hw⟩ := Option.bind_eq_some_iff.1 h
    rw [Place.below?_cons_cons, if_pos (same_self_of_part? hu), ih hw]

/-- Places of one part are one place, or none of them lies in the other. -/
theorem apart_of_part?_eq (hp : v.part? p = some w) (hq : v.part? q = some w) :
    p.below? q = some [] ∨ p.Apart q := by
  have hinside : ∀ {p q : Place} {a r}, v.part? p = some w → v.part? q = some w → p.below? q ≠ some (a :: r) := by
    intro p q a r hp hq hbelow
    rw [part?_of_below? hbelow, hp] at hq
    exact absurd (sizeOf_lt_of_part? hq) (Nat.lt_irrefl _)
  cases hbelow : p.below? q with
  | some r =>
    cases r with
    | nil => exact .inl rfl
    | cons a r => exact absurd hbelow (hinside hp hq)
  | none =>
    refine .inr ⟨hbelow, ?_⟩
    cases habove : q.below? p with
    | none => rfl
    | some r =>
      cases r with
      | nil =>
        rw [Place.below?_eq_some_nil_comm, hbelow] at habove
        cases habove
      | cons a r => exact absurd habove (hinside hq hp)

/-! ### Another part at a place -/

/-- What the step to a part holds afterwards. -/
theorem part?_put_cons (a b : Step) (p q : Place) (w v : Value) :
    (put w (a :: p) v).part? (b :: q) =
      if a.same b then (v.part? [a]).bind fun u => (put w p u).part? q else v.part? (b :: q) := by
  cases a with
  | key k =>
    cases v with
    | map es =>
      cases hk : Entries.get? k es with
      | none =>
        have hput : put w (.key k :: p) (.map es) = .map es := by simp [put, hk]
        rw [hput]
        split
        · next hab => rw [← part?_cons_congr hab, part?_cons, part?, hk]; rfl
        · rfl
      | some x =>
        have hput : put w (.key k :: p) (.map es) = .map (Entries.set k (put w p x) es) := by simp [put, hk]
        rw [hput]
        cases b with
        | item j => rfl
        | key l =>
          rw [part?, Entries.get?_set]
          show _ = if k.same l then _ else _
          split
          · simp [part?, hk]
          · rfl
    | _ =>
      cases b with
      | key l => simp [put, part?]
      | item j => simp [put, Step.same]
  | item i =>
    cases v with
    | list items =>
      have hput : put w (.item i :: p) (.list items) = .list (items.modify i (put w p)) := rfl
      rw [hput]
      cases b with
      | key l => rfl
      | item j =>
        rw [part?, List.getElem?_modify]
        by_cases hij : i = j
        · subst hij
          cases hi : items[i]? <;> simp [Step.same, part?, hi]
        · simp [Step.same, hij, part?]
    | _ =>
      cases b with
      | key l => simp [put, Step.same]
      | item j => simp [put, part?]

theorem part?_put_of_apart (h : p.Apart q) (w v : Value) : (put w p v).part? q = v.part? q := by
  induction p generalizing q v with
  | nil => simp [Place.Apart] at h
  | cons a p ih =>
    cases q with
    | nil => simp [Place.Apart] at h
    | cons b q =>
      rw [part?_put_cons]
      split
      · next hab =>
        rw [← part?_cons_congr hab, part?_cons a q]
        exact Option.bind_congr fun u _ => ih ((Place.apart_cons_iff hab).1 h) u
      · rfl

theorem part?_put_of_some (h : v.part? p = some u) (w : Value) : (put w p v).part? p = some w := by
  induction p generalizing v with
  | nil => simp [put]
  | cons a p ih =>
    rw [part?_cons] at h
    obtain ⟨x, hx, hu⟩ := Option.bind_eq_some_iff.1 h
    rw [part?_put_cons, if_pos (same_self_of_part? hx), hx]
    exact ih hu

theorem put_eq_self (h : v.part? p = some w) : put w p v = v := by
  induction p generalizing v with
  | nil => simpa [put] using h.symm
  | cons a p ih =>
    cases a with
    | key k =>
      cases v with
      | map es =>
        obtain ⟨u, hu, hw⟩ := Option.bind_eq_some_iff.1 h
        simp [put, hu, ih hw, Entries.set_eq_self hu]
      | _ => cases h
    | item i =>
      cases v with
      | list items =>
        obtain ⟨u, hu, hw⟩ := Option.bind_eq_some_iff.1 h
        have hitems : items.modify i (put w p) = items := by
          refine List.ext_getElem? fun j => ?_
          rw [List.getElem?_modify]
          by_cases hij : i = j
          · subst hij
            simp [hu, ih hw]
          · simp [hij]
        show Value.list (items.modify i (put w p)) = _
        rw [hitems]
      | _ => cases h

/-- The value with another part at several places. -/
def putAll (part : Value) (places : List Place) (v : Value) : Value := places.foldl (fun v p => put part p v) v

variable {ps : List Place}

theorem part?_putAll_of_apart (h : ∀ p ∈ ps, p.Apart q) (w v : Value) : (putAll w ps v).part? q = v.part? q := by
  induction ps generalizing v with
  | nil => rfl
  | cons p ps ih =>
    obtain ⟨hp, hps⟩ := List.forall_mem_cons.1 h
    exact (ih hps _).trans (part?_put_of_apart hp w v)

theorem putAll_eq_self (h : ∀ p ∈ ps, v.part? p = some w) : putAll w ps v = v := by
  induction ps with
  | nil => rfl
  | cons p ps ih =>
    obtain ⟨hp, hps⟩ := List.forall_mem_cons.1 h
    show putAll w ps (put w p v) = v
    rw [put_eq_self hp, ih hps]

/-- What was put at a place stays there while it is put at places apart, or at the place itself. -/
theorem part?_putAll_of_eq (hv : v.part? q = some w) (h : ∀ p ∈ ps, p.below? q = some [] ∨ p.Apart q) :
    (putAll w ps v).part? q = some w := by
  induction ps generalizing v with
  | nil => exact hv
  | cons p ps ih =>
    obtain ⟨hp, hps⟩ := List.forall_mem_cons.1 h
    refine ih ?_ hps
    rcases hp with hsame | hapart
    · rw [part?_congr hsame] at hv ⊢
      exact part?_put_of_some hv w
    · rwa [part?_put_of_apart hapart]

/-- A part that is put at several places, each apart from the others, stands at each of them. -/
theorem part?_putAll_of_mem (hq : q ∈ ps) (hv : v.part? q = some u)
    (h : ∀ p ∈ ps, p.below? q = some [] ∨ p.Apart q) : (putAll w ps v).part? q = some w := by
  induction ps generalizing u v with
  | nil => cases hq
  | cons p ps ih =>
    obtain ⟨hp, hps⟩ := List.forall_mem_cons.1 h
    show (putAll w ps (put w p v)).part? q = some w
    rcases hp with hsame | hapart
    · refine part?_putAll_of_eq ?_ hps
      rw [part?_congr hsame] at hv ⊢
      exact part?_put_of_some hv w
    · rcases List.mem_cons.1 hq with rfl | hq
      · exact part?_putAll_of_eq (part?_put_of_some hv w) hps
      · exact ih hq (by rwa [part?_put_of_apart hapart]) hps

end Value

end RouteDoc
