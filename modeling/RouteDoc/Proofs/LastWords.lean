import Mathlib.Data.List.Induction
import Mathlib.Data.List.Nodup
import RouteDoc.Field

/-!
# First place, last word

What is declared under names, one thing after another, is kept in a list in which every name has one place.  A name
gets its place when it is declared for the first time, and what is declared last under it stands there.  Both lists
that are built so, the annotations of a class and the fields of a type, are the same function of what is declared.

* `lastWord?` — what is declared last under a name;
* `lastWords` — every name at its first place, with its last word;
* `eq_lastWords_iff` — the list is determined by the order of its names and by what stands under each;
* `foldl_putBy`, `putAllNamed_eq`, `Param.distinct_eq` — it is what one gets by putting one thing after another;
* `lastWords_append_lastWords` — what is summed up already counts as it did.
-/

namespace RouteDoc

/-- What is declared last under a name. -/
def lastWord? {α : Type} (name : α → String) (n : String) (as : List α) : Option α :=
  as.reverse.find? fun a => name a == n

/-- Every name at its first place, with what is declared last under it. -/
def lastWords {α : Type} (name : α → String) (as : List α) : List α :=
  (as.map name).eraseDups.filterMap fun n => lastWord? name n as

/-- Puts a thing in the place of the one with its name, or at the end. -/
def putBy {α : Type} (name : α → String) (a : α) : List α → List α
  | [] => [a]
  | b :: bs => if name b == name a then a :: bs else b :: putBy name a bs

variable {α β : Type} {name : α → String} {a b : α} {as bs : List α} {n : String}

/-! ### The last word -/

theorem lastWord?_append (as bs : List α) :
    lastWord? name n (as ++ bs) = (lastWord? name n bs).or (lastWord? name n as) := by
  rw [lastWord?, List.reverse_append, List.find?_append]
  rfl

theorem lastWord?_snoc (as : List α) (a : α) :
    lastWord? name n (as ++ [a]) = if name a == n then some a else lastWord? name n as := by
  rw [lastWord?_append]
  cases h : name a == n <;> simp [lastWord?, h]

theorem lastWord?_eq_none_iff : lastWord? name n as = none ↔ n ∉ as.map name := by
  simp [lastWord?]

theorem name_of_lastWord? (h : lastWord? name n as = some a) : name a = n := by
  simpa using List.find?_some h

theorem mem_of_lastWord? (h : lastWord? name n as = some a) : a ∈ as := List.mem_reverse.1 (List.mem_of_find?_eq_some h)

theorem exists_lastWord? (h : n ∈ as.map name) : ∃ a, lastWord? name n as = some a ∧ name a = n := by
  cases hword : lastWord? name n as with
  | none => exact absurd h (lastWord?_eq_none_iff.1 hword)
  | some a => exact ⟨a, rfl, name_of_lastWord? hword⟩

/-- Where every name has one place, each word is the last. -/
theorem lastWord?_of_nodup (hnodup : (as.map name).Nodup) (ha : a ∈ as) : lastWord? name (name a) as = some a := by
  obtain ⟨b, hword, hname⟩ := exists_lastWord? (List.mem_map_of_mem ha)
  rw [hword, List.inj_on_of_nodup_map hnodup (mem_of_lastWord? hword) ha hname]

/-! ### The list -/

theorem eq_filterMap_of_names {g : String → Option α} (h : ∀ a ∈ as, g (name a) = some a) :
    as = (as.map name).filterMap g := by
  induction as with
  | nil => rfl
  | cons a as ih =>
    rw [List.map_cons, List.filterMap_cons, h a List.mem_cons_self]
    exact congrArg (a :: ·) (ih fun b hb => h b (List.mem_cons_of_mem _ hb))

theorem map_filterMap_lastWord? {ns : List String} (h : ∀ n ∈ ns, n ∈ as.map name) :
    (ns.filterMap fun n => lastWord? name n as).map name = ns := by
  induction ns with
  | nil => rfl
  | cons n ns ih =>
    obtain ⟨a, hword, hname⟩ := exists_lastWord? (h n List.mem_cons_self)
    rw [List.filterMap_cons, hword]
    exact congrArg₂ List.cons hname (ih fun m hm => h m (List.mem_cons_of_mem _ hm))

theorem names_lastWords (name : α → String) (as : List α) :
    (lastWords name as).map name = (as.map name).eraseDups :=
  map_filterMap_lastWord? fun _ hn => List.mem_eraseDups.1 hn

theorem eraseDups_snoc (ns : List String) (n : String) :
    (ns ++ [n]).eraseDups = if n ∈ ns then ns.eraseDups else ns.eraseDups ++ [n] := by
  rw [List.eraseDups_append, List.removeAll]
  by_cases hn : n ∈ ns <;> simp [hn, List.eraseDups_cons]

theorem nodup_eraseDups (ns : List String) : ns.eraseDups.Nodup := by
  induction ns using List.reverseRecOn with
  | nil => exact List.nodup_nil
  | append_singleton ns n ih =>
    rw [eraseDups_snoc]
    split
    · exact ih
    · next hn =>
      refine List.nodup_append.2 ⟨ih, List.nodup_singleton n, fun m hm k hk heq => hn ?_⟩
      rw [← List.mem_singleton.1 hk, ← heq]
      exact List.mem_eraseDups.1 hm

theorem nodup_lastWords (name : α → String) (as : List α) : ((lastWords name as).map name).Nodup := by
  rw [names_lastWords]
  exact nodup_eraseDups _

theorem lastWord?_of_mem_lastWords (h : a ∈ lastWords name as) : lastWord? name (name a) as = some a := by
  obtain ⟨n, -, hword⟩ := List.mem_filterMap.1 h
  rw [name_of_lastWord? hword, hword]

theorem mem_of_mem_lastWords (h : a ∈ lastWords name as) : a ∈ as := mem_of_lastWord? (lastWord?_of_mem_lastWords h)

/-- **The list is determined by its names in order and by what stands under each.** -/
theorem eq_lastWords_iff : bs = lastWords name as ↔
    bs.map name = (as.map name).eraseDups ∧ ∀ b ∈ bs, lastWord? name (name b) as = some b := by
  constructor
  · rintro rfl
    exact ⟨names_lastWords name as, fun b hb => lastWord?_of_mem_lastWords hb⟩
  · rintro ⟨hnames, hwords⟩
    rw [lastWords, ← hnames]
    exact eq_filterMap_of_names hwords

theorem eraseDups_of_nodup {ns : List String} (h : ns.Nodup) : ns.eraseDups = ns := by
  induction ns using List.reverseRecOn with
  | nil => rfl
  | append_singleton ns n ih =>
    obtain ⟨hns, -, hdisjoint⟩ := List.nodup_append.1 h
    rw [eraseDups_snoc, if_neg fun hn => hdisjoint n hn n List.mem_cons_self rfl, ih hns]

/-- A list in which every name has one place stays as it is. -/
theorem lastWords_of_nodup (h : (as.map name).Nodup) : lastWords name as = as :=
  (eq_lastWords_iff.2 ⟨(eraseDups_of_nodup h).symm, fun _ ha => lastWord?_of_nodup h ha⟩).symm

/-- The last word of a list that is summed up. -/
theorem lastWord?_lastWords (name : α → String) (n : String) (as : List α) :
    lastWord? name n (lastWords name as) = lastWord? name n as := by
  by_cases hn : n ∈ as.map name
  · obtain ⟨a, hword, rfl⟩ := exists_lastWord? hn
    have ha : a ∈ lastWords name as := List.mem_filterMap.2 ⟨_, List.mem_eraseDups.2 hn, hword⟩
    rw [hword, lastWord?_of_nodup (nodup_lastWords name as) ha]
  · have hn' : n ∉ (lastWords name as).map name := by rwa [names_lastWords, List.mem_eraseDups]
    rw [lastWord?_eq_none_iff.2 hn, lastWord?_eq_none_iff.2 hn']

/-! ### Putting one thing after another -/

theorem names_putBy (name : α → String) (a : α) (bs : List α) :
    (putBy name a bs).map name =
      if name a ∈ bs.map name then bs.map name else bs.map name ++ [name a] := by
  induction bs with
  | nil => rfl
  | cons b bs ih =>
    rw [putBy]
    by_cases hb : name b = name a
    · simp [hb]
    · have ha : ¬name a = name b := fun h => hb h.symm
      rw [if_neg (by simpa using hb), List.map_cons, ih, List.map_cons]
      by_cases hin : name a ∈ bs.map name
      · rw [if_pos hin, if_pos (List.mem_cons_of_mem _ hin)]
      · rw [if_neg hin, if_neg (by simpa [ha] using hin), List.cons_append]

/-- What was there under another name stays, what was there under the name is gone. -/
theorem mem_of_mem_putBy (hnodup : (bs.map name).Nodup) (h : b ∈ putBy name a bs) :
    b = a ∨ b ∈ bs ∧ name b ≠ name a := by
  induction bs with
  | nil => exact .inl (List.mem_singleton.1 h)
  | cons c bs ih =>
    obtain ⟨hc, hbs⟩ := List.nodup_cons.1 hnodup
    rw [putBy] at h
    split at h
    · next heq =>
      rcases List.mem_cons.1 h with rfl | h
      · exact .inl rfl
      · refine .inr ⟨List.mem_cons_of_mem _ h, fun hname => hc ?_⟩
        rw [eq_of_beq heq, ← hname]
        exact List.mem_map_of_mem h
    · next hne =>
      rcases List.mem_cons.1 h with rfl | h
      · exact .inr ⟨List.mem_cons_self, by simpa using hne⟩
      · exact (ih hbs h).imp_right fun ⟨hin, hname⟩ => ⟨List.mem_cons_of_mem _ hin, hname⟩

theorem putBy_lastWords (name : α → String) (a : α) (as : List α) :
    putBy name a (lastWords name as) = lastWords name (as ++ [a]) := by
  refine eq_lastWords_iff.2 ⟨?_, fun b hb => ?_⟩
  · rw [names_putBy, names_lastWords, List.map_append, List.map_singleton, eraseDups_snoc]
    simp only [List.mem_eraseDups]
  · rw [lastWord?_snoc]
    rcases mem_of_mem_putBy (nodup_lastWords name as) hb with rfl | ⟨hin, hname⟩
    · simp
    · rw [if_neg (by simpa using hname.symm), lastWord?_of_mem_lastWords hin]

/-- **Things put one after another, each in the place of its name, are summed up**; by induction on what is still to
be put. -/
theorem foldl_putBy (name : α → String) (as done : List α) :
    as.foldl (fun out a => putBy name a out) (lastWords name done) = lastWords name (done ++ as) := by
  induction as generalizing done with
  | nil => rw [List.append_nil]; rfl
  | cons a as ih =>
    rw [List.foldl_cons, putBy_lastWords, ih, List.append_assoc]
    rfl

theorem lastWords_nil (name : α → String) : lastWords name ([] : List α) = [] := rfl

/-! ### Lists of pairs and of parameters -/

theorem putNamed_eq (n : String) (b : β) (pairs : List (String × β)) :
    putNamed n b pairs = putBy Prod.fst (n, b) pairs := by
  induction pairs with
  | nil => rfl
  | cons e pairs ih =>
    rw [putNamed, putBy, ih]

theorem putAllNamed_lastWords (pairs done : List (String × β)) :
    putAllNamed pairs (lastWords Prod.fst done) = lastWords Prod.fst (done ++ pairs) := by
  rw [← foldl_putBy, putAllNamed]
  simp only [putNamed_eq]

/-- **Pairs under the same name are summed up.** -/
theorem putAllNamed_eq (pairs : List (String × β)) : putAllNamed pairs [] = lastWords Prod.fst pairs :=
  putAllNamed_lastWords pairs []

theorem Param.insert_eq (p : Param) (ps : List Param) : insert p ps = putBy Param.name p ps := by
  induction ps with
  | nil => rfl
  | cons q ps ih => rw [insert, putBy, ih]

/-- **Parameters under the same name are summed up.** -/
theorem Param.distinct_eq (ps : List Param) : distinct ps = lastWords Param.name ps := by
  have h := foldl_putBy Param.name ps []
  rw [lastWords_nil, List.nil_append] at h
  rw [← h, distinct]
  simp only [insert_eq]

/-! ### Several lists -/

theorem eraseDups_append_eraseDups (ms ns : List String) : (ms ++ ns.eraseDups).eraseDups = (ms ++ ns).eraseDups := by
  induction ns using List.reverseRecOn with
  | nil => rfl
  | append_singleton ns n ih =>
    rw [eraseDups_snoc, ← List.append_assoc, eraseDups_snoc]
    split
    · next hn => rw [if_pos (List.mem_append_right _ hn), ih]
    · rw [← List.append_assoc, eraseDups_snoc, ih]
      simp only [List.mem_append, List.mem_eraseDups]

/-- **A list that is summed up already counts as it did.** -/
theorem lastWords_append_lastWords (name : α → String) (as bs : List α) :
    lastWords name (as ++ lastWords name bs) = lastWords name (as ++ bs) := by
  refine eq_lastWords_iff.2 ⟨?_, fun b hb => ?_⟩
  · rw [names_lastWords, List.map_append, names_lastWords, eraseDups_append_eraseDups, List.map_append]
  · rw [lastWord?_append, ← lastWord?_lastWords, ← lastWord?_append]
    exact lastWord?_of_mem_lastWords hb

/-- Lists that are summed up one by one, and put one after another. -/
theorem foldl_putAllNamed (f : α → List (String × β)) (as : List α) (done : List (String × β)) :
    as.foldl (fun out a => putAllNamed (lastWords Prod.fst (f a)) out) (lastWords Prod.fst done) =
      lastWords Prod.fst (done ++ as.flatMap f) := by
  induction as generalizing done with
  | nil => rw [List.flatMap_nil, List.append_nil]; rfl
  | cons a as ih =>
    rw [List.foldl_cons, putAllNamed_lastWords, lastWords_append_lastWords, ih, List.flatMap_cons, List.append_assoc]

end RouteDoc
