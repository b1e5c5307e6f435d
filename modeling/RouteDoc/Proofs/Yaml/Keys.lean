import Mathlib.Data.List.Pairwise
import RouteDoc.Document
import RouteDoc.Proofs.Fields
import RouteDoc.Proofs.Overlay
import RouteDoc.Proofs.Yaml.Meanings

/-!
# Keys of documents that are read

A mapping that is read from a text holds no two equal keys, however often the text names them: the entries are stored
one after another, and an equal key keeps its place.  So whatever is read holds no key twice, at any depth.

* `Yaml.Meaning.stored` — the entries of a mapping, which were stored one after another;
* `Yaml.Meaning.unrepeated_map` — a mapping with such entries;
* `Yaml.unrepeated_valueOf` — the value of a graph;
* `Document.ofText_cases`, `Document.exists_map_of_load` — a document that was read.
-/

namespace RouteDoc

open Json (key_of_mem_insert)

namespace Yaml

namespace Meaning

variable {key : NumberedKey} {m : Meaning} {entries pairs : List (NumberedKey × Meaning)}

/-- A part of a mapping after a value was stored is that value, or was there. -/
theorem part_of_mem_insert {e : NumberedKey × Meaning} (h : e ∈ insert key m entries) :
    e.2 = m ∨ ∃ e' ∈ entries, e.2 = e'.2 := by
  induction entries with
  | nil => exact .inl (by rw [List.mem_singleton.1 h])
  | cons e' entries ih =>
    obtain ⟨k, other⟩ := e'
    rw [insert] at h
    split at h
    · rcases List.mem_cons.1 h with rfl | h
      · exact .inl rfl
      · exact .inr ⟨e, List.mem_cons_of_mem _ h, rfl⟩
    · rcases List.mem_cons.1 h with rfl | h
      · exact .inr ⟨(k, other), List.mem_cons_self, rfl⟩
      · rcases ih h with heq | ⟨e', he', heq⟩
        · exact .inl heq
        · exact .inr ⟨e', List.mem_cons_of_mem _ he', heq⟩

/-- No key of a mapping that is put together stands twice. -/
def Apart (entries : List (NumberedKey × Meaning)) : Prop :=
  entries.Pairwise fun a b => sameKey a.1 b.1 = false

/-- Storing a value makes no key stand twice. -/
theorem Apart.insert (h : Apart entries) (key : NumberedKey) (m : Meaning) : Apart (insert key m entries) := by
  induction entries with
  | nil => exact List.pairwise_singleton _ _
  | cons e entries ih =>
    obtain ⟨k, other⟩ := e
    obtain ⟨hhead, htail⟩ := List.pairwise_cons.1 h
    rw [Meaning.insert]
    split
    · exact List.pairwise_cons.2 ⟨hhead, htail⟩
    · next hk =>
      refine List.pairwise_cons.2 ⟨fun e he => ?_, ih htail⟩
      rcases key_of_mem_insert he with heq | ⟨e', he', heq⟩
      · rw [heq]
        exact Bool.eq_false_iff.2 hk
      · rw [heq]
        exact hhead e' he'

/-- The entries of a mapping that is put together. -/
def stored (pairs : List (NumberedKey × Meaning)) : List (NumberedKey × Meaning) :=
  pairs.foldl (fun out e => insert e.1 e.2 out) []

theorem value_map (pairs : List (NumberedKey × Meaning)) :
    (map pairs).value = .map ((stored pairs).map fun e => (.scalar e.1.2, e.2.value)) := rfl

theorem apart_stored (pairs : List (NumberedKey × Meaning)) : Apart (stored pairs) := by
  have hfold : ∀ (pairs out : List (NumberedKey × Meaning)), Apart out →
      Apart (pairs.foldl (fun out e => Meaning.insert e.1 e.2 out) out) := by
    intro pairs
    induction pairs with
    | nil => exact fun out h => h
    | cons p pairs ih => exact fun out h => ih _ (h.insert p.1 p.2)
  exact hfold pairs [] .nil

theorem sameKey_comm (j k : NumberedKey) : sameKey j k = sameKey k j := by
  rw [sameKey, sameKey, BEq.comm, Scalar.sameKey_comm]

/-- Entries with equal keys are one entry. -/
theorem eq_of_mem_stored {e f : NumberedKey × Meaning} (he : e ∈ stored pairs) (hf : f ∈ stored pairs)
    (h : sameKey e.1 f.1 = true) : e = f := by
  have hsymm : Std.Symm fun a b : NumberedKey × Meaning => sameKey a.1 b.1 = false :=
    ⟨fun a b h => by rwa [sameKey_comm]⟩
  by_contra hne
  rw [(apart_stored pairs).forall he hf hne] at h
  cases h

/-- What stands in a mapping is one of the values that were stored. -/
theorem part_of_mem_stored {e : NumberedKey × Meaning} (h : e ∈ stored pairs) : ∃ p ∈ pairs, e.2 = p.2 := by
  have hfold : ∀ (pairs out : List (NumberedKey × Meaning)),
      e ∈ pairs.foldl (fun out e => Meaning.insert e.1 e.2 out) out →
        (∃ p ∈ pairs, e.2 = p.2) ∨ ∃ p ∈ out, e.2 = p.2 := by
    intro pairs
    induction pairs with
    | nil => exact fun out h => .inr ⟨e, h, rfl⟩
    | cons p pairs ih =>
      intro out h
      rcases ih _ h with ⟨q, hq, heq⟩ | ⟨q, hq, heq⟩
      · exact .inl ⟨q, List.mem_cons_of_mem _ hq, heq⟩
      · rcases part_of_mem_insert hq with hp | ⟨r, hr, hqr⟩
        · exact .inl ⟨p, List.mem_cons_self, heq.trans hp⟩
        · exact .inr ⟨r, hr, heq.trans hqr⟩
  exact (hfold pairs [] h).resolve_right (by simp)

/-- No key of the value of a mapping stands twice. -/
theorem unrepeated_stored (pairs : List (NumberedKey × Meaning)) :
    Entries.Unrepeated ((stored pairs).map fun e => (.scalar e.1.2, e.2.value)) :=
  List.pairwise_map.2 ((apart_stored pairs).imp fun h => (Bool.or_eq_false_iff.1 h).2)

/-- **A mapping that is put together holds no key twice**, when its parts do not. -/
theorem unrepeated_map (h : ∀ e ∈ pairs, e.2.value.Unrepeated) : (map pairs).value.Unrepeated := by
  refine .map (unrepeated_stored pairs) fun e he => ?_
  obtain ⟨e', he', rfl⟩ := List.mem_map.1 he
  obtain ⟨p, hp, heq⟩ := part_of_mem_stored he'
  show e'.2.value.Unrepeated
  rw [heq]
  exact h p hp

end Meaning

/-- The value of every node holds no key twice. -/
theorem Parts.unrepeated_meaning (ps : Parts) (count : Nat) :
    ∀ around n, (ps.meaning count around n).value.Unrepeated := by
  induction count with
  | zero => exact fun around n => .leaf rfl
  | succ count ih =>
    intro around n
    rw [Parts.meaning]
    split
    · exact .leaf rfl
    · split
      · next s _ => cases s <;> exact .leaf rfl
      · exact .leaf rfl
      · exact .leaf rfl
      · refine Meaning.unrepeated_map fun e he => ?_
        obtain ⟨entry, -, rfl⟩ := List.mem_map.1 he
        exact ih _ _
      · exact .leaf rfl
      · exact .leaf rfl
      · exact .leaf rfl

/-- **What is read holds no key twice.** -/
theorem unrepeated_valueOf {g : Graph} {v : Value} {sharing : Sharing} (h : valueOf g = .ok (v, sharing)) :
    v.Unrepeated := by
  obtain ⟨ps, -, h⟩ := exists_of_bind_eq_ok h
  cases h
  exact ps.unrepeated_meaning _ _ _

end Yaml

namespace Document

/-- A document that was read from a text is empty, or the value of a graph, which is a mapping. -/
theorem ofText_cases {n : FileName} {text : List Char} {d : Document} (h : ofText n text = .ok d) :
    d = plain (.map []) ∨ ∃ graph es sharing, Yaml.valueOf graph = .ok (.map es, sharing) ∧ d = ⟨.map es, sharing⟩ := by
  obtain ⟨graph?, -, h⟩ := exists_of_bind_eq_ok h
  cases graph? with
  | none =>
    cases h
    exact .inl rfl
  | some graph =>
    obtain ⟨⟨v, sharing⟩, hvalue, h⟩ := exists_of_bind_eq_ok h
    replace h : ofValue n v sharing = .ok d := h
    unfold ofValue at h
    split at h
    · cases h
      exact .inl rfl
    · cases h
      exact .inr ⟨graph, _, sharing, hvalue, rfl⟩
    · cases h

/-- A document that was read from a text is a mapping that holds no key twice. -/
theorem exists_map_of_ofText {n : FileName} {text : List Char} {d : Document} (h : ofText n text = .ok d) :
    (∃ es, d.value = .map es) ∧ d.value.Unrepeated := by
  rcases ofText_cases h with rfl | ⟨graph, es, sharing, hvalue, rfl⟩
  · exact ⟨⟨[], rfl⟩, .map List.Pairwise.nil (by simp)⟩
  · exact ⟨⟨es, rfl⟩, Yaml.unrepeated_valueOf hvalue⟩

/-- **A document that was read from a file is a mapping that holds no key twice.** -/
theorem exists_map_of_load {f : Folder} {n : FileName} {d : Document} (h : load f n = .ok d) :
    (∃ es, d.value = .map es) ∧ d.value.Unrepeated := by
  obtain ⟨octets, -, h⟩ := exists_of_bind_eq_ok h
  unfold ofOctets at h
  split at h
  · exact exists_map_of_ofText h
  · cases h

end Document

end RouteDoc
