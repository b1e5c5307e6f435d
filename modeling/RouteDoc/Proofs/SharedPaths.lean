import RouteDoc.Document
import RouteDoc.Proofs.Fields
import RouteDoc.Proofs.PathMerging
import RouteDoc.Proofs.Places
import RouteDoc.Proofs.Publication

/-!
# Paths that stand in several places

A document that was read from a text may hold the mapping of its paths in other places, too.  An override of the whole
document makes new paths and leaves those places alone.  An override of one path changes the mapping where it is, and so
changes every place that holds it.

* `Document.Faithful` — places with one label hold one part;
* `Document.mergeRoute_agrees_iff` — when the two ways of merging into a path give one document;
* `Document.mergeRoute_twice` — an override of one path, merged twice.
-/

namespace RouteDoc

namespace Value

variable {v w : Value} {q : Place}

theorem part?_pathsPlace (v : Value) : v.part? Sharing.pathsPlace = v.get? "paths" := by
  cases v with
  | map es => simp [Sharing.pathsPlace, part?, get?, entries?]
  | _ => rfl

/-- An override of one path changes no place apart from the paths. -/
theorem part?_mergeRoute {path : String} {os : Entries} (h : v.mergeRoute path (.map os) = .ok w)
    (hq : Place.Apart Sharing.pathsPlace q) : w.part? q = v.part? q := by
  obtain ⟨es, paths, base, hopen, rfl⟩ := eq_of_mergeRoute h
  cases q with
  | nil => simp [Place.Apart] at hq
  | cons a q =>
    have hfirst : ¬ Step.same (.key (.str "paths")) a = true := by
      intro hsame
      have hbelow := hq.1
      rw [Sharing.pathsPlace, Place.below?_cons_cons, if_pos hsame] at hbelow
      simp at hbelow
    cases v with
    | map document =>
      cases a with
      | item i => rfl
      | key k =>
        have hk : ¬ Key.same (.str "paths") k = true := hfirst
        have hopened : es.get? k = Entries.get? k document := by
          have hes : Value.map (if Entries.has (.str "paths") document then document
              else document ++ [(.str "paths", .map [])]) = .map es := Except.ok.inj hopen
          cases hes
          split
          · rfl
          · next hhas => rw [← Entries.set_of_not_has (by simpa using hhas), Entries.get?_set, if_neg hk]
        rw [part?, part?, Entries.get?_set, if_neg hk, hopened]
    | _ => cases hopen

end Value

/-! ### Shared parts -/

namespace Sharing

variable {s : Sharing} {p q : Place}

/-- A place and its other places have one label, and are not one place. -/
theorem mem_twins (h : q ∈ s.twins p) :
    ∃ r l, (r, l) ∈ s ∧ p.below? r = some [] ∧ (q, l) ∈ s ∧ p.below? q ≠ some [] := by
  rw [twins] at h
  split at h
  · next l hl =>
    obtain ⟨e, he, rfl⟩ := List.mem_map.1 h
    obtain ⟨hmem, hkeep⟩ := List.mem_filter.1 he
    obtain ⟨r, hr, hlabel⟩ := Option.map_eq_some_iff.1 hl
    have hplace := List.find?_some hr
    obtain ⟨hm, hne⟩ := Bool.and_eq_true_iff.1 hkeep
    refine ⟨r.1, l, ?_, by simpa using hplace, ?_, by simpa using hne⟩
    · rw [← hlabel]
      exact List.mem_of_find?_eq_some hr
    · obtain rfl : e.2 = l := by simpa using hm
      exact hmem
  · cases h

end Sharing

namespace Document

variable {d override e : Document} {p q : Place}

/-- **Places with one label hold one part**, and a place has one label. -/
structure Faithful (d : Document) : Prop where
  part : ∀ p q l, (p, l) ∈ d.sharing → (q, l) ∈ d.sharing → ∃ w, d.value.part? p = some w ∧ d.value.part? q = some w
  label : ∀ p q l m, (p, l) ∈ d.sharing → (q, m) ∈ d.sharing → p.below? q = some [] → l = m

/-- The other places of the mapping of paths. -/
def pathsElsewhere (d : Document) : List Place := Sharing.twins Sharing.pathsPlace d.sharing

/-- What stands at the other places of the paths are the paths. -/
theorem Faithful.part?_elsewhere (hd : d.Faithful) (hq : q ∈ d.pathsElsewhere) :
    ∃ w, d.value.part? Sharing.pathsPlace = some w ∧ d.value.part? q = some w := by
  obtain ⟨r, l, hr, hsame, hmem, -⟩ := Sharing.mem_twins hq
  obtain ⟨w, hrw, hqw⟩ := hd.part r q l hr hmem
  exact ⟨w, by rw [← Value.part?_congr hsame, hrw], hqw⟩

/-- None of the other places of the paths lies in the paths, nor do the paths lie in it. -/
theorem Faithful.apart (hd : d.Faithful) (hq : q ∈ d.pathsElsewhere) : Place.Apart Sharing.pathsPlace q := by
  obtain ⟨w, hpaths, hqw⟩ := hd.part?_elsewhere hq
  obtain ⟨-, -, -, -, -, hne⟩ := Sharing.mem_twins hq
  exact (Value.apart_of_part?_eq hpaths hqw).resolve_left hne

theorem Faithful.apart_or_same (hd : d.Faithful) (hp : p ∈ d.pathsElsewhere) (hq : q ∈ d.pathsElsewhere) :
    p.below? q = some [] ∨ p.Apart q := by
  obtain ⟨v, hv, hpv⟩ := hd.part?_elsewhere hp
  obtain ⟨w, hw, hqw⟩ := hd.part?_elsewhere hq
  obtain rfl : v = w := Option.some.inj (hv.symm.trans hw)
  exact Value.apart_of_part?_eq hpv hqw

/-! ### Overrides of one path -/

theorem value_foldl_repeated (part : Value) (source : Place) (ps : List Place) (d : Document) :
    (ps.foldl (fun d p => d.repeated part source p) d).value = Value.putAll part ps d.value := by
  induction ps generalizing d with
  | nil => rfl
  | cons p ps ih => exact ih _

theorem sharing_foldl_repeated (part : Value) (source : Place) (ps : List Place) (d : Document) :
    (ps.foldl (fun d p => d.repeated part source p) d).sharing =
      ps.foldl (fun s p => Sharing.repeated source p s) d.sharing := by
  induction ps generalizing d with
  | nil => rfl
  | cons p ps ih => exact ih _

/-- The document after an override of one path: the new paths stand wherever the old ones did. -/
theorem mergeRoute_eq (override : Document) {path : String} {m : Value}
    (h : d.value.mergeRoute path override.value = .ok m) :
    d.mergeRoute path override = .ok
      ⟨Value.putAll ((m.get? "paths").getD .null) d.pathsElsewhere m,
        d.pathsElsewhere.foldl (fun s p => Sharing.repeated Sharing.pathsPlace p s)
          (Sharing.mergeRoute path d.value override.value d.sharing override.sharing)⟩ := by
  let changed : Document := ⟨m, Sharing.mergeRoute path d.value override.value d.sharing override.sharing⟩
  let part := (m.get? "paths").getD .null
  have hvalue := value_foldl_repeated part Sharing.pathsPlace d.pathsElsewhere changed
  have hsharing := sharing_foldl_repeated part Sharing.pathsPlace d.pathsElsewhere changed
  rw [mergeRoute, h]
  exact congrArg Except.ok (congrArg₂ Document.mk hvalue hsharing)

/-- An override of the paths alone leaves the old ones at their other places. -/
theorem Faithful.part?_mergeRoute_elsewhere (hd : d.Faithful) {path : String} {os : Entries} {m : Value}
    (hm : d.value.mergeRoute path (.map os) = .ok m) (hq : q ∈ d.pathsElsewhere) :
    ∃ w, d.value.get? "paths" = some w ∧ m.part? q = some w := by
  obtain ⟨w, hpaths, hw⟩ := hd.part?_elsewhere hq
  rw [Value.part?_pathsPlace] at hpaths
  exact ⟨w, hpaths, (Value.part?_mergeRoute hm (hd.apart hq)).trans hw⟩

/-- The new paths, put where the old ones are, stand at each of these places. -/
theorem Faithful.part?_putAll_elsewhere (hd : d.Faithful) {path : String} {os : Entries} {m : Value}
    (hm : d.value.mergeRoute path (.map os) = .ok m) (hq : q ∈ d.pathsElsewhere) (new : Value) :
    (Value.putAll new d.pathsElsewhere m).part? q = some new := by
  obtain ⟨w, -, hw⟩ := hd.part?_mergeRoute_elsewhere hm hq
  exact Value.part?_putAll_of_mem hq hw fun p hp => hd.apart_or_same hp hq

/-- Nothing changes at the other places when there are none, or when the paths have not changed. -/
theorem Faithful.putAll_elsewhere_eq_iff (hd : d.Faithful) {path : String} {os : Entries} {m : Value}
    (hm : d.value.mergeRoute path (.map os) = .ok m) (new : Value) :
    Value.putAll new d.pathsElsewhere m = m ↔ d.pathsElsewhere = [] ∨ d.value.get? "paths" = some new := by
  constructor
  · intro heq
    rcases List.eq_nil_or_concat d.pathsElsewhere with hnil | ⟨qs, q, hqs⟩
    · exact .inl hnil
    · have hq : q ∈ d.pathsElsewhere := by simp [hqs]
      obtain ⟨w, hpaths, hw⟩ := hd.part?_mergeRoute_elsewhere hm hq
      refine .inr ?_
      rw [hpaths, ← hw, ← hd.part?_putAll_elsewhere hm hq new, heq]
  · rintro (hnil | hpaths)
    · rw [hnil]
      rfl
    · refine Value.putAll_eq_self fun q hq => ?_
      obtain ⟨w, hw, hmw⟩ := hd.part?_mergeRoute_elsewhere hm hq
      rw [hmw, ← hw, hpaths]

/-- **When an override of one path is an override of the document that has the path alone.**  Wherever neither the paths
nor another place of them is concerned, both give the same; the one puts the new paths in every place of the old ones,
the other leaves the old ones there.  So they give one document unless the paths stand elsewhere and change. -/
theorem mergeRoute_agrees_iff (d : Document) (document os : Entries) (path : String) (other shared : Sharing)
    (hd : d.value = .map document) (hos : os.Unrepeated) (hpaths : d.value.MapAt [.str "paths"])
    (hitem : d.value.MapAt [.str "paths", .str path]) :
    ∃ (within whole : Document) (merged paths : Entries),
      d.mergeRoute path ⟨.map os, other⟩ = .ok within ∧
      d.mergeInto ⟨.object [("paths", .object [(path, .map os)])], shared⟩ = .ok whole ∧
      whole.value = .map merged ∧
      document.SameBut (.str "paths") merged ∧
      merged.get? (.str "paths") = some (.map paths) ∧
      (Value.entriesOf (document.get? (.str "paths"))).SameBut (.str path) paths ∧
      paths.get? (.str path) = some (Value.over (d.value.at? [.str "paths", .str path]) (.map os)) ∧
      (∀ p, (∀ q ∈ d.pathsElsewhere, q.Apart p) → within.value.part? p = whole.value.part? p) ∧
      (d.pathsElsewhere = [] → within.value = whole.value) ∧
      (d.Faithful →
        (∀ q ∈ d.pathsElsewhere,
          within.value.part? q = some (.map paths) ∧ whole.value.part? q = d.value.get? "paths") ∧
        (within.value = whole.value ↔ d.pathsElsewhere = [] ∨ d.value.get? "paths" = some (.map paths))) := by
  rw [hd] at hpaths hitem ⊢
  obtain ⟨merged, paths, hroute, hwhole, hsame, hget, hothers, hentry⟩ :=
    Value.mergeRoute_agrees document os path hos hpaths hitem
  rw [← hd] at hroute hwhole
  obtain ⟨within, hwithin, hvalue⟩ : ∃ within, d.mergeRoute path ⟨.map os, other⟩ = .ok within ∧
      within.value = Value.putAll (.map paths) d.pathsElsewhere (.map merged) := by
    refine ⟨_, mergeRoute_eq ⟨.map os, other⟩ hroute, ?_⟩
    rw [show (Value.map merged).get? "paths" = merged.get? (.str "paths") from rfl, hget]
    rfl
  let alone := Value.object [("paths", .object [(path, .map os)])]
  let whole : Document := ⟨.map merged, Sharing.merge d.value alone d.sharing shared⟩
  have hinto : d.mergeInto ⟨alone, shared⟩ = .ok whole := by
    rw [mergeInto, hwhole]
    rfl
  have hmerged : whole.value = .map merged := rfl
  refine ⟨within, whole, merged, paths, hwithin, hinto, hmerged, hsame, hget, hothers, hentry, ?_, ?_, ?_⟩
  · intro p hp
    rw [hvalue, hmerged]
    exact Value.part?_putAll_of_apart hp _ _
  · intro hnone
    rw [hvalue, hnone, hmerged]
    rfl
  · intro hfaithful
    rw [hvalue, hmerged, ← hd]
    refine ⟨fun q hq => ⟨hfaithful.part?_putAll_elsewhere hroute hq _, ?_⟩,
      hfaithful.putAll_elsewhere_eq_iff hroute _⟩
    obtain ⟨w, hw, hmw⟩ := hfaithful.part?_mergeRoute_elsewhere hroute hq
    rw [hmw, hw]

/-- A document of one path, which another part of it shows under a name of its own. -/
def mirrored : Document :=
  let paths := Value.object [("/a", .object [])]
  ⟨.object [("paths", paths), ("x-copy", paths)], [([.key (.str "paths")], ⟨0, none⟩), ([.key (.str "x-copy")], ⟨0, none⟩)]⟩

theorem mirrored_faithful : mirrored.Faithful := by
  have hpart : ∀ e ∈ mirrored.sharing, mirrored.value.part? e.1 = some (.object [("/a", .object [])]) := by
    intro e he
    rcases List.mem_cons.1 he with rfl | he
    · rfl
    · rw [List.mem_singleton.1 he]
      rfl
  have hlabel : ∀ e ∈ mirrored.sharing, e.2 = ⟨0, none⟩ := by decide
  exact ⟨fun p q l hp hq => ⟨_, hpart _ hp, hpart _ hq⟩,
    fun p q l m hp hq _ => (hlabel _ hp).trans (hlabel _ hq).symm⟩

/-- A path that is merged into its own entry reaches the part that shows the paths. -/
theorem mirrored_merge :
    ∃ (within whole : Document) (paths : Entries),
      mirrored.mergeRoute "/b" ⟨.map [], []⟩ = .ok within ∧
      mirrored.mergeInto ⟨.object [("paths", .object [("/b", .map [])])], []⟩ = .ok whole ∧
      paths.get? (.str "/b") = some (.map []) ∧
      within.value.part? [.key (.str "x-copy")] = some (.map paths) ∧
      whole.value.part? [.key (.str "x-copy")] = mirrored.value.get? "paths" := by
  obtain ⟨within, whole, merged, paths, hwithin, hwhole, -, -, -, -, hentry, -, -, hshared⟩ :=
    mergeRoute_agrees_iff mirrored _ [] "/b" [] [] rfl .nil (by decide) (by decide)
  have htwin : [Step.key (.str "x-copy")] ∈ mirrored.pathsElsewhere := by decide
  obtain ⟨hnew, hold⟩ := (hshared mirrored_faithful).1 _ htwin
  exact ⟨within, whole, paths, hwithin, hwhole, hentry, hnew, hold⟩

/-- A text in which the paths have a name, and stand under another one as well. -/
def mirroredText : String := "paths: &p\n  /a: {}\nx-copy: *p\n"

/-- **A path merged into its own entry shows up where the paths stand under another name.**  Merged as an override of
the document it does not. -/
theorem route_override_spreads :
    ∃ d within whole : Document, ofText (FileName.ofText "base.yaml") mirroredText.toList = .ok d ∧
      d.mergeRoute "/b" (plain (.map [])) = .ok within ∧
      d.mergeInto (plain (.object [("paths", .object [("/b", .map [])])])) = .ok whole ∧
      d.value.at? [.str "x-copy", .str "/b"] = none ∧ whole.value.at? [.str "x-copy", .str "/b"] = none ∧
      (within.value.at? [.str "x-copy", .str "/b"]).isSome = true := by
  let entry (v : Value) := (v.at? [.str "x-copy", .str "/b"]).isSome
  let alone := plain (.object [("paths", .object [("/b", .map [])])])
  obtain ⟨d, hd, hfacts⟩ : ∃ d : Document, ofText (FileName.ofText "base.yaml") mirroredText.toList = .ok d ∧
      (entry d.value, (d.mergeRoute "/b" (plain (.map []))).toOption.map fun e => entry e.value,
        (d.mergeInto alone).toOption.map fun e => entry e.value) = (false, some true, some false) :=
    exists_of_toOption (by decide +kernel)
  obtain ⟨hbefore, hrest⟩ := Prod.mk.inj hfacts
  obtain ⟨hwithin, hwhole⟩ := Prod.mk.inj hrest
  obtain ⟨within, hroute, hspread⟩ := exists_of_toOption hwithin
  obtain ⟨whole, hinto, hkept⟩ := exists_of_toOption hwhole
  exact ⟨d, within, whole, hd, hroute, hinto, Option.not_isSome_iff_eq_none.1 (by simpa [entry] using hbefore),
    Option.not_isSome_iff_eq_none.1 (by simpa [entry] using hkept), hspread⟩

/-! ### An override of one path, merged twice -/

end Document

namespace Sharing

variable {s : Sharing} {p q : Place} {l : Label}

theorem mem_of_mem_cut {e : Place × Label} (h : e ∈ s.cut p) : e ∈ s := (List.mem_filter.1 h).1

theorem mem_of_mem_without {e : Place × Label} (h : e ∈ s.without p) : e ∈ s := (List.mem_filter.1 h).1

theorem mem_replace {place source : Place} {other own : Sharing} {e : Place × Label}
    (h : e ∈ replace place source other own) : e ∈ own ∨ e.2.copiedTo.isSome = true ∧ ∃ rest, e.1 = place ++ rest := by
  rcases List.mem_append.1 h with h | h
  · exact .inl (mem_of_mem_cut h)
  · obtain ⟨x, -, hx⟩ := List.mem_filterMap.1 h
    obtain ⟨rest, -, rfl⟩ := Option.map_eq_some_iff.1 hx
    exact .inr ⟨rfl, rest, rfl⟩

mutual

/-- A label that an override brings is one of a copy, below the place of the override. -/
theorem mem_overlay {place source : Place} {other own : Sharing} {base : Entries} {e : Place × Label} :
    (entries : Entries) → e ∈ overlay place source other base own entries →
      e ∈ own ∨ e.2.copiedTo.isSome = true ∧ ∃ rest, e.1 = place ++ rest
  | [], h => .inl h
  | (k, v) :: rest, h => by
    rw [overlay] at h
    rcases mem_overlay rest h with h | h
    · rcases mem_overlayValue v h with h | ⟨hcopied, below, hplace⟩
      · exact .inl h
      · exact .inr ⟨hcopied, .key k :: below, by rw [hplace, List.append_assoc]; rfl⟩
    · exact .inr h

/-- The same for a value of the override. -/
theorem mem_overlayValue {place source : Place} {other own : Sharing} {existing : Option Value} {e : Place × Label} :
    (value : Value) → e ∈ overlayValue place source other existing own value →
      e ∈ own ∨ e.2.copiedTo.isSome = true ∧ ∃ rest, e.1 = place ++ rest
  | .map entries, h => by
    cases existing with
    | none => exact mem_replace (by simpa [overlayValue] using h)
    | some w =>
      cases w with
      | map base => exact (mem_overlay entries (by simpa [overlayValue] using h)).imp_left mem_of_mem_without
      | _ => exact mem_replace (by simpa [overlayValue] using h)
  | .scalar _, h | .list _, h | .set _, h | .enclosing _, h => mem_replace (by simpa [overlayValue] using h)

end

theorem mem_mergeRoute {path : String} {document override : Value} {own other : Sharing} {e : Place × Label}
    (h : e ∈ mergeRoute path document override own other) :
    e ∈ own ∨ e.2.copiedTo.isSome = true ∧ ∃ rest, e.1 = .key (.str "paths") :: .key (.str path) :: rest := by
  unfold mergeRoute at h
  split at h
  · exact (mem_overlay _ h).imp_left mem_of_mem_without
  · exact (mem_overlay _ h).imp_left mem_of_mem_cut
  · exact .inl h

end Sharing

namespace Document

variable {d override e : Document} {p q : Place} {l : Label}

/-- The document is as it was read: no part of it is a copy of a part of another one. -/
def Unmerged (d : Document) : Prop := ∀ e ∈ d.sharing, e.2.copiedTo = none

/-- The labels of a document while the new paths are put in the places of the old ones: the label of the paths is the
old one, and no other places bear it. -/
structure Relabelled (d : Document) (l : Label) (s : Sharing) : Prop where
  own : ∀ p m, (p, m) ∈ s → Place.below? Sharing.pathsPlace p = some [] → m = l
  others : ∀ q, (q, l) ∈ s → ∃ p ∈ Sharing.pathsPlace :: d.pathsElsewhere, p.below? q = some []

/-- Every part that is there has the label of the paths at the place of the paths or at another one. -/
theorem Faithful.mem_elsewhere (hd : d.Faithful) {r : Place} (hr : (r, l) ∈ d.sharing)
    (hplace : Place.below? Sharing.pathsPlace r = some []) (hq : (q, l) ∈ d.sharing) :
    ∃ p ∈ Sharing.pathsPlace :: d.pathsElsewhere, p.below? q = some [] := by
  by_cases hself : Place.below? Sharing.pathsPlace q = some []
  · exact ⟨_, List.mem_cons_self, hself⟩
  · obtain ⟨w, -, hw⟩ := hd.part r q l hr hq
    refine ⟨q, List.mem_cons_of_mem _ ?_, Value.below?_self hw⟩
    have hlabel : d.sharing.label? Sharing.pathsPlace = some l := by
      cases hfind : d.sharing.find? fun e => Place.below? Sharing.pathsPlace e.1 == some [] with
      | none => exact absurd hplace (by simpa using List.find?_eq_none.1 hfind _ hr)
      | some e =>
        have hsame : Place.below? Sharing.pathsPlace e.1 = some [] := by simpa using List.find?_some hfind
        rw [Sharing.label?, hfind]
        exact congrArg some (hd.label e.1 r e.2 l (List.mem_of_find?_eq_some hfind) hr
          (by rw [← Place.below?_congr hsame, hplace]))
    rw [pathsElsewhere, Sharing.twins, hlabel]
    exact List.mem_map.2 ⟨(q, l), List.mem_filter.2 ⟨hq, by simpa using hself⟩, rfl⟩

theorem Faithful.relabelled_mergeRoute (hd : d.Faithful) (hun : d.Unmerged) {r : Place} (hr : (r, l) ∈ d.sharing)
    (hplace : Place.below? Sharing.pathsPlace r = some []) (path : String) (override : Document) :
    d.Relabelled l (Sharing.mergeRoute path d.value override.value d.sharing override.sharing) := by
  constructor
  · intro p m hp hsame
    rcases Sharing.mem_mergeRoute hp with hp | ⟨-, rest, rfl⟩
    · exact (hd.label r p l m hr hp (by rw [← Place.below?_congr hplace, hsame])).symm
    · simp [Sharing.pathsPlace, Place.below?_cons_cons, Step.same] at hsame
  · intro q hq
    rcases Sharing.mem_mergeRoute hq with hq | ⟨hcopied, -⟩
    · exact hd.mem_elsewhere hr hplace hq
    · rw [hun _ hr] at hcopied
      cases hcopied

theorem Faithful.relabelled_repeated (hd : d.Faithful) {s : Sharing} (h : d.Relabelled l s)
    (hp : p ∈ d.pathsElsewhere) : d.Relabelled l (s.repeated Sharing.pathsPlace p) := by
  constructor
  · intro q m hq hplace
    rcases List.mem_append.1 hq with hq | hq
    · exact h.own q m (Sharing.mem_of_mem_cut hq) hplace
    · obtain ⟨e, -, he⟩ := List.mem_filterMap.1 hq
      obtain ⟨rest, -, hrest⟩ := Option.map_eq_some_iff.1 he
      obtain ⟨rfl, -⟩ := Prod.mk.inj hrest
      rw [(hd.apart hp).below?_append] at hplace
      cases hplace
  · intro q hq
    rcases List.mem_append.1 hq with hq | hq
    · exact h.others q (Sharing.mem_of_mem_cut hq)
    · obtain ⟨⟨r, m⟩, hr, he⟩ := List.mem_filterMap.1 hq
      obtain ⟨rest, hrest, hplace⟩ := Option.map_eq_some_iff.1 he
      obtain ⟨rfl, rfl⟩ := Prod.mk.inj hplace
      obtain ⟨x, hx, hxr⟩ := h.others r hr
      rcases List.mem_cons.1 hx with rfl | hx
      · obtain rfl : rest = [] := Option.some.inj (hrest.symm.trans hxr)
        obtain ⟨w, -, hw⟩ := hd.part?_elsewhere hp
        exact ⟨p, List.mem_cons_of_mem _ hp, by rw [List.append_nil, Value.below?_self hw]⟩
      · -- the paths do not lie above another place of them
        rw [(Place.below?_congr_right hxr _).1 (hd.apart hx).1] at hrest
        cases hrest

theorem Faithful.relabelled_foldl (hd : d.Faithful) {s : Sharing} {ps : List Place}
    (hps : ∀ p ∈ ps, p ∈ d.pathsElsewhere) (h : d.Relabelled l s) :
    d.Relabelled l (ps.foldl (fun s p => Sharing.repeated Sharing.pathsPlace p s) s) := by
  induction ps generalizing s with
  | nil => exact h
  | cons p ps ih =>
    obtain ⟨hp, hps⟩ := List.forall_mem_cons.1 hps
    exact ih hps (hd.relabelled_repeated h hp)

/-- After an override of one path, the paths stand nowhere but where they stood before. -/
theorem Faithful.elsewhere_mergeRoute (hd : d.Faithful) (hun : d.Unmerged) {path : String} {m : Value}
    (hm : d.value.mergeRoute path override.value = .ok m) (h : d.mergeRoute path override = .ok e)
    (hq : q ∈ e.pathsElsewhere) : ∃ p ∈ d.pathsElsewhere, p.below? q = some [] := by
  have hsharing : e.sharing = d.pathsElsewhere.foldl (fun s p => Sharing.repeated Sharing.pathsPlace p s)
      (Sharing.mergeRoute path d.value override.value d.sharing override.sharing) := by
    rw [mergeRoute_eq _ hm] at h
    cases h
    rfl
  obtain ⟨r, m, hr, hplace, hq, hne⟩ := Sharing.mem_twins hq
  by_cases hlabel : ∃ r l, (r, l) ∈ d.sharing ∧ Place.below? Sharing.pathsPlace r = some []
  · obtain ⟨r', l, hr', hplace'⟩ := hlabel
    have he : d.Relabelled l e.sharing := by
      rw [hsharing]
      exact hd.relabelled_foldl (fun _ => id) (hd.relabelled_mergeRoute hun hr' hplace' path override)
    obtain rfl : m = l := he.own r m hr hplace
    obtain ⟨p, hp, hpq⟩ := he.others q hq
    rcases List.mem_cons.1 hp with rfl | hp
    · exact absurd hpq hne
    · exact ⟨p, hp, hpq⟩
  · -- without a label of the paths there are no other places, and the override brings none
    have hnone : d.pathsElsewhere = [] := by
      refine List.eq_nil_iff_forall_not_mem.2 fun p hp => ?_
      obtain ⟨r', l, hr', hplace', -⟩ := Sharing.mem_twins hp
      exact hlabel ⟨r', l, hr', hplace'⟩
    rw [hsharing, hnone] at hr
    rcases Sharing.mem_mergeRoute hr with hr | ⟨-, rest, rfl⟩
    · exact absurd ⟨r, m, hr, hplace⟩ hlabel
    · simp [Sharing.pathsPlace, Place.below?_cons_cons, Step.same] at hplace

/-- **An override of one path merged twice is merged once**, in a document as it was read: also where the paths stand
under other names. -/
theorem mergeRoute_twice (hd : d.Faithful) (hun : d.Unmerged) {path : String} {os : Entries}
    (hos : (Value.map os).Proper) {other : Sharing} (h : d.mergeRoute path ⟨.map os, other⟩ = .ok e) :
    ∃ again, e.mergeRoute path ⟨.map os, other⟩ = .ok again ∧ again.value = e.value := by
  obtain ⟨m, hm, -⟩ := exists_of_bind_eq_ok h
  obtain ⟨es, paths, base, -, rfl⟩ := Value.eq_of_mergeRoute hm
  have hitem : (paths.set (.str path) (.map (base.merge os))).get? (.str path) = some (.map (base.merge os)) := by
    rw [Entries.get?_set]
    simp
  generalize hnew : Value.map (paths.set (.str path) (.map (base.merge os))) = new at hm
  have hfound : (Value.map (es.set (.str "paths") new)).part? Sharing.pathsPlace = some new := by
    rw [Value.part?_pathsPlace]
    show (es.set (.str "paths") new).get? (.str "paths") = some new
    rw [Entries.get?_set]
    simp
  have hvalue : e.value = Value.putAll new d.pathsElsewhere (.map (es.set (.str "paths") new)) := by
    rw [mergeRoute_eq ⟨.map os, other⟩ hm, ← Value.part?_pathsPlace, hfound] at h
    cases h
    rfl
  have hpaths : e.value.part? Sharing.pathsPlace = some new := by
    rw [hvalue, Value.part?_putAll_of_apart fun p hp => (hd.apart hp).symm, hfound]
  have hother : ∀ p ∈ d.pathsElsewhere, e.value.part? p = some new := by
    intro p hp
    rw [hvalue]
    exact hd.part?_putAll_elsewhere hm hp new
  have hagain : e.value.mergeRoute path (.map os) = .ok e.value := by
    rw [Value.part?_pathsPlace] at hpaths
    cases hev : e.value with
    | map fs =>
      rw [hev] at hpaths
      exact Value.mergeRoute_eq_self (hpaths.trans (congrArg some hnew.symm)) hitem (Value.merge_merge_self hos base)
    | _ => rw [hev] at hpaths; cases hpaths
  refine ⟨_, mergeRoute_eq ⟨.map os, other⟩ hagain, ?_⟩
  rw [← Value.part?_pathsPlace, hpaths]
  refine Value.putAll_eq_self fun q hq => ?_
  obtain ⟨p, hp, hpq⟩ := hd.elsewhere_mergeRoute hun hm h hq
  rw [Value.part?_congr hpq, hother p hp]
  rfl

end Document

end RouteDoc
