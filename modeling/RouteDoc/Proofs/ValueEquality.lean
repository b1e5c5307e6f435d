import Mathlib.Data.List.Perm.Subperm
import RouteDoc.Proofs.TextKeyed

/-!
# Equality of values

What stands in lists and mappings is compared by content, and a computed NaN is equal to itself alone: two of them
are one only where they are shared.  Equality is transitive, where what is shared in both steps counts as shared.
Among values that are keyed by texts it is symmetric, since a mapping whose keys all stand in another one of its size
has all keys of the other; and such a value equals itself.

* `Value.same_trans` — equality is transitive;
* `Value.same_mono` — the more is shared, the more is equal;
* `Value.TextKeyed.same_comm` — values keyed by texts may be compared in either order;
* `Value.TextKeyed.same_self` — a value keyed by texts equals itself.
-/

namespace RouteDoc

/-! ### Scalars and keys -/

namespace Scalar

variable {shared other : Bool} {s t u : Scalar}

theorem samePart_trans (hst : s.samePart shared t = true) (htu : t.samePart other u = true) :
    s.samePart (shared && other) u = true := by
  simp only [samePart, Bool.or_eq_true, Bool.and_eq_true, beq_iff_eq] at hst htu ⊢
  rcases hst with ⟨hshared, rfl⟩ | hst
  · exact htu.imp_left fun ⟨hother, hsu⟩ => ⟨⟨hshared, hother⟩, hsu⟩
  · rcases htu with ⟨-, rfl⟩ | htu
    · exact .inr hst
    · exact .inr (sameKey_trans hst htu)

theorem samePart_comm (shared : Bool) (s t : Scalar) : s.samePart shared t = t.samePart shared s := by
  rw [samePart, samePart, sameKey_comm, Bool.beq_comm]

theorem samePart_mono (h : shared = true → other = true) (hst : s.samePart shared t = true) :
    s.samePart other t = true := by
  simp only [samePart, Bool.or_eq_true, Bool.and_eq_true] at hst ⊢
  exact hst.imp_left fun ⟨hshared, heq⟩ => ⟨h hshared, heq⟩

theorem samePart_self (s : Scalar) : s.samePart true s = true := by simp [samePart]

end Scalar

namespace Value

/-! ### Transitivity -/

variable {shared other : Bool}

theorem sameEntries_iff {es os : Entries} : sameEntries shared es os = true ↔
    ∀ e ∈ es, ∃ w, os.get? e.1 = some w ∧ e.2.same shared w = true := by
  induction es with
  | nil => simp [sameEntries]
  | cons e es ih =>
    obtain ⟨k, v⟩ := e
    rw [sameEntries, Bool.and_eq_true, ih, List.forall_mem_cons]
    cases os.get? k <;> simp

theorem map_same_map_iff {es os : Entries} : (Value.map es).same shared (.map os) = true ↔
    es.length = os.length ∧ ∀ e ∈ es, ∃ w, os.get? e.1 = some w ∧ e.2.same shared w = true := by
  rw [same, Bool.and_eq_true, beq_iff_eq, sameEntries_iff]

/-- Sets of which each holds what the one before holds. -/
theorem all_any_trans {a b c : List Key} (hab : (a.all fun k => b.any k.same) = true)
    (hbc : (b.all fun k => c.any k.same) = true) : (a.all fun k => c.any k.same) = true := by
  rw [List.all_eq_true] at hab hbc ⊢
  intro k hk
  obtain ⟨l, hl, hkl⟩ := List.any_eq_true.1 (hab k hk)
  obtain ⟨m, hm, hlm⟩ := List.any_eq_true.1 (hbc l hl)
  exact List.any_eq_true.2 ⟨m, hm, Key.same_trans hkl hlm⟩

mutual

/-- **Equality is transitive**; by recursion on the first value. -/
theorem same_trans : {u v w : Value} → u.same shared v = true → v.same other w = true →
    u.same (shared && other) w = true
  | .scalar s, v, w, huv, hvw => by
    cases v with
    | scalar t =>
      cases w with
      | scalar _ => exact Scalar.samePart_trans huv hvw
      | _ => cases hvw
    | _ => cases huv
  | .list a, v, w, huv, hvw => by
    cases v with
    | list b =>
      cases w with
      | list c => exact sameItems_trans huv hvw
      | _ => cases hvw
    | _ => cases huv
  | .set a, v, w, huv, hvw => by
    cases v with
    | set b =>
      cases w with
      | set c =>
        rw [same, Bool.and_eq_true, beq_iff_eq] at huv hvw ⊢
        exact ⟨huv.1.trans hvw.1, all_any_trans huv.2 hvw.2⟩
      | _ => cases hvw
    | _ => cases huv
  | .map es, v, w, huv, hvw => by
    cases v with
    | map os =>
      cases w with
      | map ps =>
        rw [same, Bool.and_eq_true, beq_iff_eq] at huv hvw ⊢
        exact ⟨huv.1.trans hvw.1, sameEntries_trans huv.2 hvw.2⟩
      | _ => cases hvw
    | _ => cases huv
  | .enclosing m, v, w, huv, hvw => by
    cases v with
    | enclosing n =>
      cases w with
      | enclosing _ =>
        rw [same, beq_iff_eq] at huv hvw ⊢
        exact huv.trans hvw
      | _ => cases hvw
    | _ => cases huv

theorem sameItems_trans : {a b c : List Value} → sameItems shared a b = true → sameItems other b c = true →
    sameItems (shared && other) a c = true
  | [], b, c, hab, hbc => by
    cases b with
    | nil =>
      cases c with
      | nil => rfl
      | cons _ _ => cases hbc
    | cons _ _ => cases hab
  | x :: a, b, c, hab, hbc => by
    cases b with
    | nil => cases hab
    | cons y b =>
      cases c with
      | nil => cases hbc
      | cons z c =>
        rw [sameItems, Bool.and_eq_true] at hab hbc ⊢
        exact ⟨same_trans hab.1 hbc.1, sameItems_trans hab.2 hbc.2⟩

theorem sameEntries_trans : {es os ps : Entries} → sameEntries shared es os = true →
    sameEntries other os ps = true → sameEntries (shared && other) es ps = true
  | [], _, _, _, _ => rfl
  | (k, v) :: es, os, ps, hes, hos => by
    rw [sameEntries, Bool.and_eq_true] at hes ⊢
    refine ⟨?_, sameEntries_trans hes.2 hos⟩
    cases hw : os.get? k with
    | none =>
      rw [hw] at hes
      cases hes.1
    | some w =>
      rw [hw] at hes
      obtain ⟨l, hin, hl⟩ := Entries.exists_same_of_get? hw
      obtain ⟨x, hx, hwx⟩ := sameEntries_iff.1 hos (l, w) hin
      rw [← Entries.get?_congr hl, hx]
      exact same_trans hes.1 hwx

end

/-! ### More that is shared -/

mutual

/-- **The more is shared, the more is equal**; by recursion on the first value. -/
theorem same_mono (h : shared = true → other = true) : {v w : Value} → v.same shared w = true → v.same other w = true
  | .scalar s, w, hvw => by
    cases w with
    | scalar t => exact Scalar.samePart_mono h hvw
    | _ => cases hvw
  | .list a, w, hvw => by
    cases w with
    | list b => exact sameItems_mono h hvw
    | _ => cases hvw
  | .set a, w, hvw => by
    cases w with
    | set b => exact hvw
    | _ => cases hvw
  | .map es, w, hvw => by
    cases w with
    | map os =>
      rw [same, Bool.and_eq_true] at hvw ⊢
      exact ⟨hvw.1, sameEntries_mono h hvw.2⟩
    | _ => cases hvw
  | .enclosing m, w, hvw => by
    cases w with
    | enclosing n => exact hvw
    | _ => cases hvw

theorem sameItems_mono (h : shared = true → other = true) : {a b : List Value} → sameItems shared a b = true →
    sameItems other a b = true
  | [], b, hab => by
    cases b with
    | nil => rfl
    | cons _ _ => cases hab
  | x :: a, b, hab => by
    cases b with
    | nil => cases hab
    | cons y b =>
      rw [sameItems, Bool.and_eq_true] at hab ⊢
      exact ⟨same_mono h hab.1, sameItems_mono h hab.2⟩

theorem sameEntries_mono (h : shared = true → other = true) : {es os : Entries} → sameEntries shared es os = true →
    sameEntries other es os = true
  | [], _, _ => rfl
  | (k, v) :: es, os, hes => by
    rw [sameEntries, Bool.and_eq_true] at hes ⊢
    refine ⟨?_, sameEntries_mono h hes.2⟩
    cases hw : os.get? k with
    | none =>
      rw [hw] at hes
      cases hes.1
    | some w =>
      rw [hw] at hes
      exact same_mono h hes.1

end

/-! ### Symmetry -/

variable {p q : Scalar → Prop} {v w : Value}

theorem TextKeyed.of_mem_list {vs : List Value} (h : (Value.list vs).TextKeyed p) (hv : v ∈ vs) : v.TextKeyed p := by
  cases h with
  | list hvs => exact hvs v hv

/-- Different texts are different keys. -/
theorem TextKeyed.nodup_keys {es : Entries} (h : (Value.map es).TextKeyed p) : es.keys.Nodup := by
  rw [Entries.keys, List.Nodup, List.pairwise_map]
  refine h.distinct.pairwise.imp_of_mem fun {e f} he _ hne heq => ?_
  obtain ⟨⟨name, hname⟩, -⟩ := h.of_mem_map he
  rw [← heq, hname] at hne
  simp at hne

/-- Keys that are all keys of a mapping of the same size are all keys of it. -/
theorem mem_keys_of_same {es os : Entries} (hes : (Value.map es).TextKeyed p) (hos : (Value.map os).TextKeyed q)
    (hlength : es.length = os.length) (hfound : ∀ e ∈ es, ∃ w, os.get? e.1 = some w) {k : Key} (hk : k ∈ os.keys) :
    k ∈ es.keys := by
  have hsub : es.keys ⊆ os.keys := by
    intro l hl
    obtain ⟨e, he, rfl⟩ := List.mem_map.1 hl
    obtain ⟨w, hw⟩ := hfound e he
    obtain ⟨m, hm, hsame⟩ := Entries.exists_same_of_get? hw
    obtain ⟨⟨name, hname⟩, -⟩ := hes.of_mem_map he
    obtain ⟨⟨text, htext⟩, -⟩ := hos.of_mem_map hm
    have heq : m = e.1 := by
      rw [show m = .str text from htext, hname] at hsame ⊢
      simpa using hsame
    exact List.mem_map.2 ⟨(m, w), hm, heq⟩
  have hle : os.keys.length ≤ es.keys.length := by
    rw [Entries.keys, Entries.keys, List.length_map, List.length_map]
    omega
  have hperm := (hes.nodup_keys.subperm hsub).perm_of_length_le hle
  exact hperm.mem_iff.2 hk

theorem sameItems_swap {vs ws : List Value}
    (h : ∀ v ∈ vs, ∀ w ∈ ws, v.same shared w = true → w.same shared v = true)
    (hsame : sameItems shared vs ws = true) : sameItems shared ws vs = true := by
  induction vs generalizing ws with
  | nil =>
    cases ws with
    | nil => rfl
    | cons _ _ => cases hsame
  | cons v vs ih =>
    cases ws with
    | nil => cases hsame
    | cons w ws =>
      rw [sameItems, Bool.and_eq_true] at hsame ⊢
      refine ⟨h v List.mem_cons_self w List.mem_cons_self hsame.1, ih (fun x hx y hy => ?_) hsame.2⟩
      exact h x (List.mem_cons_of_mem _ hx) y (List.mem_cons_of_mem _ hy)

/-- A value that is keyed by texts is equal to whatever equals it. -/
theorem TextKeyed.same_swap (hv : v.TextKeyed p) (hw : w.TextKeyed q) (h : v.same shared w = true) :
    w.same shared v = true := by
  induction hv generalizing w with
  | @scalar s hs =>
    cases w with
    | scalar t =>
      have hst : s.samePart shared t = true := h
      show t.samePart shared s = true
      rw [Scalar.samePart_comm, hst]
    | _ => cases h
  | @list vs hvs ih =>
    cases w with
    | list ws => exact sameItems_swap (fun x hx y hy => ih x hx (hw.of_mem_list hy)) h
    | _ => cases h
  | @map es hes hkeys hvalues ih =>
    cases w with
    | map os =>
      obtain ⟨hlength, hfound⟩ := map_same_map_iff.1 h
      refine map_same_map_iff.2 ⟨hlength.symm, fun o ho => ?_⟩
      have hmap : (Value.map es).TextKeyed p := .map hes hkeys hvalues
      have hkey : o.1 ∈ es.keys := mem_keys_of_same hmap hw hlength
        (fun e he => (hfound e he).imp fun _ => And.left) (List.mem_map_of_mem ho)
      obtain ⟨e, he, hkeys⟩ := List.mem_map.1 hkey
      obtain ⟨x, hx, hsame⟩ := hfound e he
      rw [hkeys, hw.distinct.get?_of_mem ho] at hx
      obtain rfl : o.2 = x := Option.some.inj hx
      refine ⟨e.2, ?_, ih e he (hw.of_mem_map ho).2 hsame⟩
      rw [← hkeys]
      exact hes.get?_of_mem he
    | _ => cases h

/-- **Values keyed by texts may be compared in either order.** -/
theorem TextKeyed.same_comm (hv : v.TextKeyed p) (hw : w.TextKeyed q) : v.same shared w = w.same shared v :=
  Bool.eq_iff_iff.2 ⟨hv.same_swap hw, hw.same_swap hv⟩

/-! ### Reflexivity -/

/-- **A value keyed by texts equals itself**, NaN in it included, since its parts are shared with it. -/
theorem TextKeyed.same_self (hv : v.TextKeyed p) : v.same true v = true := by
  induction hv with
  | @scalar s hs => exact Scalar.samePart_self s
  | @list vs hvs ih =>
    show sameItems true vs vs = true
    clear hvs
    induction vs with
    | nil => rfl
    | cons v vs ihs =>
      rw [sameItems, Bool.and_eq_true]
      exact ⟨ih v List.mem_cons_self, ihs fun w hw => ih w (List.mem_cons_of_mem _ hw)⟩
  | @map es hes hkeys hvalues ih =>
    exact map_same_map_iff.2 ⟨rfl, fun e he => ⟨e.2, hes.get?_of_mem he, ih e he⟩⟩

end Value

end RouteDoc
