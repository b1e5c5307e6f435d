import Mathlib.Data.List.Perm.Subperm
import Mathlib.Data.List.ReduceOption
import RouteDoc.Proofs.SharedPaths
import RouteDoc.Proofs.Yaml.Keys

/-!
# Shared parts of documents that are read

A node that stands in several places of a text is one part of the document, and these places bear its number.  What is
found there is the same value each time, unless it tells where it stands, as something that lies inside of itself does,
or lies under a key that is not equal to itself, so that no steps lead there.

* `Yaml.Parts.Ample` — levels enough for all nodes, each of which lies in itself at most once;
* `Yaml.Parts.value_meaning` — a node has one value, wherever it stands;
* `Yaml.Parts.charted_meaning` — the numbers of a value name its parts;
* `Document.faithful_ofText` — places with one label hold one part, in a document that is read;
* `Document.mergeRoute_twice_ofText` — an override of one path, merged twice into a document that is read.
-/

namespace RouteDoc

namespace Yaml

namespace Meaning

variable {P : Nat → Value → Prop} {m : Meaning} {items : List Meaning} {pairs : List (NumberedKey × Meaning)}
  {p : Place} {n : Nat}

/-! ### Numbers of parts -/

theorem exists_of_mem_numbersUnder {step : Step} (h : (p, n) ∈ m.numbersUnder step) :
    ∃ q, (q, n) ∈ m.numbers ∧ p = step :: q := by
  obtain ⟨e, he, heq⟩ := List.mem_map.1 h
  cases heq
  exact ⟨e.1, he, rfl⟩

theorem exists_of_mem_numbers_list (h : (p, n) ∈ (list items).numbers) :
    ∃ i x q, items[i]? = some x ∧ (q, n) ∈ x.numbers ∧ p = .item i :: q := by
  obtain ⟨ns, hns, hin⟩ := List.mem_flatten.1 h
  obtain ⟨i, hi, rfl⟩ := List.mem_mapIdx.1 hns
  obtain ⟨q, hq, rfl⟩ := exists_of_mem_numbersUnder hin
  exact ⟨i, items[i], q, List.getElem?_eq_getElem hi, hq, rfl⟩

theorem exists_of_mem_numbers_map (h : (p, n) ∈ (map pairs).numbers) :
    ∃ e ∈ stored pairs, ∃ q, (q, n) ∈ e.2.numbers ∧ p = .key (.scalar e.1.2) :: q := by
  obtain ⟨e, he, hin⟩ := List.mem_flatMap.1 h
  obtain ⟨q, hq, rfl⟩ := exists_of_mem_numbersUnder hin
  exact ⟨e, he, q, hq, rfl⟩

/-- The numbers of a value name its parts: each is found at its place, and is as it has to be, and no place bears two
numbers. -/
structure Charted (P : Nat → Value → Prop) (m : Meaning) : Prop where
  found : ∀ p n, (p, n) ∈ m.numbers → ∃ w, m.value.part? p = some w ∧ P n w
  single : ∀ p q n k, (p, n) ∈ m.numbers → (q, k) ∈ m.numbers → p.below? q = some [] → n = k

theorem charted_of_numbers_eq_nil (h : m.numbers = []) : Charted P m := by
  constructor <;> simp [h]

theorem charted_numbered (h : Charted P m) (hinner : ∀ e ∈ m.numbers, e.1 ≠ []) (hm : P n m.value) :
    Charted P (m.numbered n) := by
  constructor
  · intro p k hp
    rcases List.mem_cons.1 hp with hp | hp
    · cases hp
      exact ⟨m.value, by simp [numbered], hm⟩
    · exact h.found p k hp
  · intro p q k l hp hq hsame
    rcases List.mem_cons.1 hp with hp | hp <;> rcases List.mem_cons.1 hq with hq | hq
    · cases hp
      cases hq
      rfl
    · cases hp
      exact absurd (by simpa using hsame) (hinner _ hq)
    · cases hq
      exact absurd (by simpa using Place.below?_eq_some_nil_comm.1 hsame) (hinner _ hp)
    · exact h.single p q k l hp hq hsame

theorem charted_list (h : ∀ x ∈ items, Charted P x) : Charted P (list items) := by
  constructor
  · intro p n hp
    obtain ⟨i, x, q, hx, hq, rfl⟩ := exists_of_mem_numbers_list hp
    obtain ⟨w, hw, hP⟩ := (h x (List.mem_of_getElem? hx)).found q n hq
    exact ⟨w, by simp [list, Value.part?, hx, hw], hP⟩
  · intro p q n k hp hq hsame
    obtain ⟨i, x, p', hx, hp', rfl⟩ := exists_of_mem_numbers_list hp
    obtain ⟨j, y, q', hy, hq', rfl⟩ := exists_of_mem_numbers_list hq
    rw [Place.below?_cons_cons] at hsame
    split at hsame
    · next hij =>
      obtain rfl : i = j := by simpa [Step.same] using hij
      obtain rfl : x = y := Option.some.inj (hx.symm.trans hy)
      exact (h x (List.mem_of_getElem? hx)).single p' q' n k hp' hq' hsame
    · cases hsame

theorem charted_map (h : ∀ e ∈ stored pairs, (Key.scalar e.1.2).same (.scalar e.1.2) = true ∧ Charted P e.2) :
    Charted P (map pairs) := by
  constructor
  · intro p n hp
    obtain ⟨e, he, q, hq, rfl⟩ := exists_of_mem_numbers_map hp
    obtain ⟨hkey, hcharted⟩ := h e he
    obtain ⟨w, hw, hP⟩ := hcharted.found q n hq
    have hget : Entries.get? (.scalar e.1.2) ((stored pairs).map fun e => (.scalar e.1.2, e.2.value)) =
        some e.2.value :=
      (unrepeated_stored pairs).get?_of_mem (List.mem_map.2 ⟨e, he, rfl⟩) hkey
    refine ⟨w, ?_, hP⟩
    rw [value_map, Value.part?, hget]
    exact hw
  · intro p q n k hp hq hsame
    obtain ⟨e, he, p', hp', rfl⟩ := exists_of_mem_numbers_map hp
    obtain ⟨f, hf, q', hq', rfl⟩ := exists_of_mem_numbers_map hq
    rw [Place.below?_cons_cons] at hsame
    split at hsame
    · next hkeys =>
      obtain rfl : e = f := eq_of_mem_stored he hf (by rw [sameKey, Bool.or_eq_true]; exact .inr hkeys)
      exact (h e he).2.single p' q' n k hp' hq' hsame
    · cases hsame

/-- A list with a number. -/
theorem charted_numbered_list (h : ∀ x ∈ items, Charted P x) (hn : P n (list items).value) :
    Charted P ((list items).numbered n) := by
  refine charted_numbered (charted_list h) (fun e he => ?_) hn
  obtain ⟨i, x, q, -, -, hplace⟩ := exists_of_mem_numbers_list he
  rw [hplace]
  exact List.cons_ne_nil _ _

/-- A mapping with a number. -/
theorem charted_numbered_map
    (h : ∀ e ∈ stored pairs, (Key.scalar e.1.2).same (.scalar e.1.2) = true ∧ Charted P e.2)
    (hn : P n (map pairs).value) : Charted P ((map pairs).numbered n) := by
  refine charted_numbered (charted_map h) (fun e he => ?_) hn
  obtain ⟨f, -, q, -, hplace⟩ := exists_of_mem_numbers_map he
  rw [hplace]
  exact List.cons_ne_nil _ _

/-! ### Values of one node -/

/-- The values are one, unless one of them is not traceable. -/
def Agree (m m' : Meaning) : Prop := m.value.Traceable → m'.value.Traceable → m.value = m'.value

theorem agree_list {others : List Meaning} (h : List.Forall₂ Agree items others) : Agree (list items) (list others) := by
  intro ht ht'
  refine congrArg Value.list ?_
  have htraced : ∀ x ∈ items, x.value.Traceable := fun x hx => ht.of_mem (List.mem_map_of_mem hx)
  have htraced' : ∀ x ∈ others, x.value.Traceable := fun x hx => ht'.of_mem (List.mem_map_of_mem hx)
  clear ht ht'
  induction h with
  | nil => rfl
  | cons hx _ ih =>
    obtain ⟨hfirst, hrest⟩ := List.forall_mem_cons.1 htraced
    obtain ⟨hfirst', hrest'⟩ := List.forall_mem_cons.1 htraced'
    rw [List.map_cons, List.map_cons, hx hfirst hfirst', ih hrest hrest']

/-- Values that are stored under the same keys stay together. -/
theorem forall₂_stored {R : Meaning → Meaning → Prop} {others : List (NumberedKey × Meaning)}
    (h : List.Forall₂ (fun a b => a.1 = b.1 ∧ R a.2 b.2) pairs others) :
    List.Forall₂ (fun a b => a.1 = b.1 ∧ R a.2 b.2) (stored pairs) (stored others) := by
  have hinsert : ∀ (key : NumberedKey) {m m' : Meaning} {es es' : List (NumberedKey × Meaning)}, R m m' →
      List.Forall₂ (fun a b => a.1 = b.1 ∧ R a.2 b.2) es es' →
        List.Forall₂ (fun a b => a.1 = b.1 ∧ R a.2 b.2) (insert key m es) (insert key m' es') := by
    intro key m m' es es' hm hes
    induction hes with
    | nil => exact .cons ⟨rfl, hm⟩ .nil
    | @cons e e' es es' he hes ih =>
      obtain ⟨k, x⟩ := e
      obtain ⟨k', y⟩ := e'
      obtain ⟨rfl, hxy⟩ := he
      rw [insert, insert]
      split
      · exact .cons ⟨rfl, hm⟩ hes
      · exact .cons ⟨rfl, hxy⟩ ih
  have hfold : ∀ {out out' : List (NumberedKey × Meaning)},
      List.Forall₂ (fun a b => a.1 = b.1 ∧ R a.2 b.2) out out' →
        List.Forall₂ (fun a b => a.1 = b.1 ∧ R a.2 b.2)
          (pairs.foldl (fun out e => insert e.1 e.2 out) out) (others.foldl (fun out e => insert e.1 e.2 out) out') := by
    induction h with
    | nil => exact fun h => h
    | @cons e e' es es' he hes ih =>
      intro out out' hout
      obtain ⟨hkey, hvalue⟩ := he
      rw [List.foldl_cons, List.foldl_cons, ← hkey]
      exact ih (hinsert e.1 hvalue hout)
  exact hfold .nil

theorem agree_map {others : List (NumberedKey × Meaning)}
    (h : List.Forall₂ (fun a b => a.1 = b.1 ∧ Agree a.2 b.2) pairs others) : Agree (map pairs) (map others) := by
  intro ht ht'
  rw [value_map] at ht ht'
  rw [value_map, value_map]
  refine congrArg Value.map ?_
  have htraced : ∀ e ∈ stored pairs, e.2.value.Traceable := fun e he => (ht.of_entry (List.mem_map_of_mem he)).2
  have htraced' : ∀ e ∈ stored others, e.2.value.Traceable := fun e he => (ht'.of_entry (List.mem_map_of_mem he)).2
  have hstored := forall₂_stored h
  generalize stored pairs = es at hstored htraced
  generalize stored others = es' at hstored htraced'
  clear ht ht'
  induction hstored with
  | nil => rfl
  | cons he _ ih =>
    obtain ⟨hfirst, hrest⟩ := List.forall_mem_cons.1 htraced
    obtain ⟨hfirst', hrest'⟩ := List.forall_mem_cons.1 htraced'
    rw [List.map_cons, List.map_cons, he.1, he.2 hfirst hfirst', ih hrest hrest']

end Meaning

/-! ### Values of nodes -/

namespace Parts

variable {ps : Parts} {count count' : Nat} {around around' : List (Option Nat)} {n : Nat}

/-- There are levels enough for all nodes that are not yet around, each of which is around once. -/
structure Ample (ps : Parts) (count : Nat) (around : List (Option Nat)) : Prop where
  nodup : around.reduceOption.Nodup
  known : ∀ n ∈ around.reduceOption, n < ps.size
  levels : ps.size < count + around.reduceOption.length

theorem ample_start {size : Nat} (h : ps.size ≤ size) : ps.Ample (size + 1) [] :=
  ⟨List.nodup_nil, by simp, by simpa using Nat.lt_succ_of_le h⟩

/-- Around a node there is room for another level. -/
theorem Ample.pos (h : ps.Ample count around) : 0 < count := by
  have hlength : around.reduceOption.length ≤ (List.range ps.size).length :=
    (List.subperm_of_subset h.nodup fun n hn => List.mem_range.2 (h.known n hn)).length_le
  have hlevels := h.levels
  rw [List.length_range] at hlength
  omega

theorem lt_of_part {part : Part} (h : ps.getD n none = some part) : n < ps.size := by
  refine Nat.lt_of_not_le fun hn => ?_
  rw [Array.getD_eq_getD_getElem?, Array.getElem?_eq_none hn] at h
  cases h

/-- Inside of a node. -/
theorem Ample.inside {part : Part} (h : ps.Ample (count + 1) around) (hn : around.contains (some n) = false)
    (hpart : ps.getD n none = some part) : ps.Ample count (some n :: around) := by
  have hfresh : n ∉ around.reduceOption := by
    rw [List.reduceOption_mem_iff]
    simpa using hn
  constructor
  · rw [List.reduceOption_cons_of_some]
    exact List.nodup_cons.2 ⟨hfresh, h.nodup⟩
  · rw [List.reduceOption_cons_of_some]
    exact List.forall_mem_cons.2 ⟨lt_of_part hpart, h.known⟩
  · have hlevels := h.levels
    rw [List.reduceOption_cons_of_some, List.length_cons]
    omega

/-- A list that stands for a pair takes no level. -/
theorem Ample.pair (h : ps.Ample count around) : ps.Ample count (none :: around) := by
  constructor <;> rw [List.reduceOption_cons_of_none]
  · exact h.nodup
  · exact h.known
  · exact h.levels

/-- A node that is around does not lead on. -/
theorem contains_eq_false_of_traceable (ht : (ps.meaning (count + 1) around n).value.Traceable) :
    around.contains (some n) = false := by
  refine Bool.eq_false_iff.2 fun hn => ?_
  rw [meaning, if_pos hn] at ht
  cases ht

/-- **A node has one value**, wherever it stands. -/
theorem agree_meaning (h : ps.Ample count around) (h' : ps.Ample count' around') :
    (ps.meaning count around n).Agree (ps.meaning count' around' n) := by
  induction count generalizing count' around around' n with
  | zero => exact absurd h.pos (Nat.lt_irrefl 0)
  | succ count ih =>
    cases count' with
    | zero => exact absurd h'.pos (Nat.lt_irrefl 0)
    | succ count' =>
      intro ht ht'
      have hn := contains_eq_false_of_traceable ht
      have hn' := contains_eq_false_of_traceable ht'
      revert ht ht'
      show Meaning.Agree _ _
      rw [meaning, if_neg (Bool.eq_false_iff.1 hn), meaning, if_neg (Bool.eq_false_iff.1 hn')]
      cases hpart : ps.getD n none with
      | none => exact fun _ _ => rfl
      | some part =>
        have hin := h.inside hn hpart
        have hin' := h'.inside hn' hpart
        cases part with
        | scalar s => exact fun _ _ => rfl
        | waiting => exact fun _ _ => rfl
        | set keys => exact fun _ _ => rfl
        | list items =>
          refine Meaning.agree_list ?_
          rw [List.forall₂_map_left_iff, List.forall₂_map_right_iff, List.forall₂_same]
          exact fun i _ => ih hin hin'
        | pairs items =>
          refine Meaning.agree_list ?_
          rw [List.forall₂_map_left_iff, List.forall₂_map_right_iff, List.forall₂_same]
          exact fun e _ => Meaning.agree_list (.cons (ih hin.pair hin'.pair) (.cons (ih hin.pair hin'.pair) .nil))
        | map entries =>
          refine Meaning.agree_map ?_
          rw [List.forall₂_map_left_iff, List.forall₂_map_right_iff, List.forall₂_same]
          exact fun e _ => ⟨rfl, ih hin hin'⟩

/-- The value is that of the node, wherever the node stands. -/
def Shows (ps : Parts) (n : Nat) (v : Value) : Prop :=
  v.Traceable ∧ ∃ count around, ps.Ample count around ∧ v = (ps.meaning count around n).value

theorem Shows.eq {v w : Value} (hv : ps.Shows n v) (hw : ps.Shows n w) : v = w := by
  obtain ⟨htraced, count, around, hample, rfl⟩ := hv
  obtain ⟨htraced', count', around', hample', rfl⟩ := hw
  exact agree_meaning hample hample' htraced htraced'

/-- **The numbers of a value name its parts**, each of which is the value of its node. -/
theorem charted_meaning (h : ps.Ample count around) (ht : (ps.meaning count around n).value.Traceable) :
    (ps.meaning count around n).Charted ps.Shows := by
  induction count generalizing around n with
  | zero => exact absurd h.pos (Nat.lt_irrefl 0)
  | succ count ih =>
    have hn := contains_eq_false_of_traceable ht
    have hshows : ps.Shows n (ps.meaning (count + 1) around n).value := ⟨ht, _, _, h, rfl⟩
    rw [meaning, if_neg (Bool.eq_false_iff.1 hn)] at ht hshows ⊢
    cases hpart : ps.getD n none with
    | none => exact Meaning.charted_of_numbers_eq_nil rfl
    | some part =>
      have hin := h.inside hn hpart
      simp only [hpart] at ht hshows ⊢
      cases part with
      | scalar s =>
        cases s with
        | date | dateTime => exact Meaning.charted_numbered (Meaning.charted_of_numbers_eq_nil rfl) (List.forall_mem_nil _) hshows
        | _ => exact Meaning.charted_of_numbers_eq_nil rfl
      | waiting => exact Meaning.charted_of_numbers_eq_nil rfl
      | set keys => exact Meaning.charted_numbered (Meaning.charted_of_numbers_eq_nil rfl) (List.forall_mem_nil _) hshows
      | list items =>
        refine Meaning.charted_numbered_list (List.forall_mem_map.2 fun i hi => ih hin ?_) hshows
        exact ht.of_mem (List.mem_map_of_mem (List.mem_map_of_mem hi))
      | pairs items =>
        refine Meaning.charted_numbered_list (List.forall_mem_map.2 fun e he => ?_) hshows
        have hpair : (Meaning.list [ps.meaning count (none :: some n :: around) e.1,
            ps.meaning count (none :: some n :: around) e.2]).value.Traceable :=
          ht.of_mem (List.mem_map_of_mem (List.mem_map_of_mem he))
        refine Meaning.charted_list (List.forall_mem_cons.2 ⟨?_, List.forall_mem_singleton.2 ?_⟩)
        · exact ih hin.pair (hpair.of_mem (by simp))
        · exact ih hin.pair (hpair.of_mem (by simp))
      | map entries =>
        refine Meaning.charted_numbered_map (fun e he => ?_) hshows
        obtain ⟨hkey, hvalue⟩ := ht.of_entry (List.mem_map_of_mem he)
        obtain ⟨p, hp, heq⟩ := Meaning.part_of_mem_stored he
        obtain ⟨f, -, rfl⟩ := List.mem_map.1 hp
        refine ⟨hkey, ?_⟩
        replace hvalue : e.2.value.Traceable := hvalue
        rw [heq] at hvalue ⊢
        exact ih hin hvalue

end Parts

/-! ### Documents that are read -/

namespace Reading

variable {r r' : Reading} {n : Nat}

theorem size_visit (h : r.visit n = .ok r') : r'.parts.size = r.parts.size := by
  rcases visit_cases h with ⟨p, -, rfl⟩ | ⟨-, -, rfl⟩ | ⟨-, s, -, rfl⟩
  · rfl
  · exact noted_size
  · exact noted_size

theorem size_visitKey (h : r.visitKey n = .ok r') : r'.parts.size = r.parts.size := by
  obtain ⟨r₁, hvisit, h⟩ := exists_of_bind_eq_ok h
  split at h
  · cases h
    exact size_visit hvisit
  · cases h

theorem size_visitItems (items : List Nat) (h : visitItems items r = .ok r') : r'.parts.size = r.parts.size := by
  induction items generalizing r with
  | nil =>
    cases h
    rfl
  | cons n items ih =>
    obtain ⟨r₁, hvisit, h⟩ := exists_of_bind_eq_ok h
    exact (ih h).trans (size_visit hvisit)

theorem size_visitEntries (es : List (Nat × Nat)) (h : visitEntries es r = .ok r') :
    r'.parts.size = r.parts.size := by
  induction es generalizing r with
  | nil =>
    cases h
    rfl
  | cons e es ih =>
    obtain ⟨r₁, hkey, h⟩ := exists_of_bind_eq_ok h
    obtain ⟨r₂, hvalue, h⟩ := exists_of_bind_eq_ok h
    exact ((ih h).trans (size_visit hvalue)).trans (size_visitKey hkey)

theorem size_visitPairs {pairs : List (Nat × Nat)} (items : List Nat) (h : visitPairs items r = .ok (pairs, r')) :
    r'.parts.size = r.parts.size := by
  induction items generalizing r pairs with
  | nil =>
    cases h
    rfl
  | cons n items ih =>
    rw [visitPairs] at h
    split at h
    · obtain ⟨r₁, hkey, h⟩ := exists_of_bind_eq_ok h
      obtain ⟨r₂, hvalue, h⟩ := exists_of_bind_eq_ok h
      obtain ⟨⟨rest, r₃⟩, hrest, h⟩ := exists_of_bind_eq_ok h
      cases h
      exact ((ih hrest).trans (size_visit hvalue)).trans (size_visit hkey)
    · cases h

theorem size_readEntries {es : List (Nat × Nat)} (h : r.readEntries n = .ok (es, r')) :
    r'.parts.size = r.parts.size := by
  obtain ⟨g, -, h⟩ := exists_of_bind_eq_ok h
  obtain ⟨r₁, hvisit, h⟩ := exists_of_bind_eq_ok h
  cases h
  exact size_visitEntries (r := { r with graph := g }) _ hvisit

theorem size_readCollection (h : r.readCollection n = .ok r') : r'.parts.size = r.parts.size := by
  rw [readCollection] at h
  split at h
  · obtain ⟨⟨es, r₁⟩, hread, h⟩ := exists_of_bind_eq_ok h
    cases h
    exact Array.size_setIfInBounds.trans (size_readEntries hread)
  · obtain ⟨⟨es, r₁⟩, hread, h⟩ := exists_of_bind_eq_ok h
    cases h
    exact Array.size_setIfInBounds.trans (size_readEntries hread)
  · obtain ⟨r₁, hread, h⟩ := exists_of_bind_eq_ok h
    cases h
    exact Array.size_setIfInBounds.trans (size_visitItems _ hread)
  · obtain ⟨⟨pairs, r₁⟩, hread, h⟩ := exists_of_bind_eq_ok h
    cases h
    exact Array.size_setIfInBounds.trans (size_visitPairs _ hread)
  · obtain ⟨⟨pairs, r₁⟩, hread, h⟩ := exists_of_bind_eq_ok h
    cases h
    exact Array.size_setIfInBounds.trans (size_visitPairs _ hread)
  · cases h

theorem size_readLevel (ns : List Nat) (h : readLevel ns r = .ok r') : r'.parts.size = r.parts.size := by
  induction ns generalizing r with
  | nil =>
    cases h
    rfl
  | cons n ns ih =>
    obtain ⟨r₁, hread, h⟩ := exists_of_bind_eq_ok h
    exact (ih h).trans (size_readCollection hread)

theorem size_readLevels (count : Nat) (h : readLevels count r = .ok r') : r'.parts.size = r.parts.size := by
  induction count generalizing r with
  | zero =>
    cases h
    rfl
  | succ count ih =>
    rw [readLevels] at h
    split at h
    · cases h
      rfl
    · obtain ⟨r₁, hread, h⟩ := exists_of_bind_eq_ok h
      exact (ih h).trans (size_readLevel (r := { r with queue := [] }) _ hread)

/-- A graph has as many parts as nodes. -/
theorem size_run {g : Graph} {ps : Parts} (h : run g = .ok ps) : ps.size = g.size := by
  obtain ⟨r₁, hvisit, h⟩ := exists_of_bind_eq_ok h
  obtain ⟨r₂, hread, h⟩ := exists_of_bind_eq_ok h
  cases h
  rw [size_readLevels _ hread, size_visit hvisit]
  exact Array.size_replicate

end Reading

theorem mem_numbers_of_mem_sharingOf {numbers : List (Place × Nat)} {p : Place} {l : Label}
    (h : (p, l) ∈ sharingOf numbers) : (p, l.number) ∈ numbers ∧ l = ⟨l.number, none⟩ := by
  obtain ⟨e, he, heq⟩ := List.mem_map.1 h
  cases heq
  exact ⟨List.mem_of_mem_filter he, rfl⟩

/-- Places with one label hold one part, in the value of a graph. -/
theorem faithful_valueOf {g : Graph} {v : Value} {s : Sharing} (h : valueOf g = .ok (v, s)) (hv : v.Traceable) :
    (⟨v, s⟩ : Document).Faithful := by
  obtain ⟨ps, hrun, h⟩ := exists_of_bind_eq_ok h
  cases h
  have hcharted := Parts.charted_meaning (Parts.ample_start (Reading.size_run hrun).le) hv
  constructor
  · intro p q l hp hq
    obtain ⟨w, hw, hshows⟩ := hcharted.found p l.number (mem_numbers_of_mem_sharingOf hp).1
    obtain ⟨w', hw', hshows'⟩ := hcharted.found q l.number (mem_numbers_of_mem_sharingOf hq).1
    obtain rfl := hshows.eq hshows'
    exact ⟨w, hw, hw'⟩
  · intro p q l m hp hq hsame
    obtain ⟨hp, hl⟩ := mem_numbers_of_mem_sharingOf hp
    obtain ⟨hq, hm⟩ := mem_numbers_of_mem_sharingOf hq
    rw [hl, hm, hcharted.single p q l.number m.number hp hq hsame]

end Yaml

namespace Document

variable {n : FileName} {text : List Char} {d e : Document}

/-- **Places with one label hold one part**, in a document that is read from a text. -/
theorem faithful_ofText (h : ofText n text = .ok d) (hd : d.value.Traceable) : d.Faithful := by
  rcases ofText_cases h with rfl | ⟨graph, es, s, hvalue, rfl⟩
  · constructor <;> simp [plain]
  · exact Yaml.faithful_valueOf hvalue hd

/-- No part of a document that is read is a copy of a part of another one. -/
theorem unmerged_ofText (h : ofText n text = .ok d) : d.Unmerged := by
  rcases ofText_cases h with rfl | ⟨graph, es, s, hvalue, rfl⟩
  · exact List.forall_mem_nil _
  · obtain ⟨ps, -, hparts⟩ := exists_of_bind_eq_ok hvalue
    obtain ⟨-, rfl⟩ := Prod.mk.inj (Except.ok.inj hparts)
    rintro ⟨p, l⟩ he
    show l.copiedTo = none
    rw [(Yaml.mem_numbers_of_mem_sharingOf he).2]

/-- **An override of one path merged twice is merged once**, in a document that is read from a text: also where the text
gives the paths other places. -/
theorem mergeRoute_twice_ofText (h : ofText n text = .ok d) (hd : d.value.Traceable) {path : String} {os : Entries}
    (hos : (Value.map os).Proper) {other : Sharing} (hmerge : d.mergeRoute path ⟨.map os, other⟩ = .ok e) :
    ∃ again, e.mergeRoute path ⟨.map os, other⟩ = .ok again ∧ again.value = e.value :=
  mergeRoute_twice (faithful_ofText h hd) (unmerged_ofText h) hos hmerge

end Document

end RouteDoc
