import RouteDoc.Proofs.Footprint

/-!
# Overrides of one path

An override of one path can be merged into that path, or as an override of the whole document that has nothing but
the path in it.  Where the document has mappings on the way, or nothing yet, both give the same document, and
nothing but that path has changed in it.

* `Entries.SameBut` — two mappings that differ under one key only;
* `Entries.sameBut_set` — storing a value changes no other key;
* `Value.mergeRoute_agrees` — the two ways of merging into a path.
-/

namespace RouteDoc

namespace Entries

variable {key : Key}

/-- The entries of a mapping under other keys. -/
def besides (key : Key) (es : Entries) : Entries := es.filter fun e => !e.1.same key

/-- **The second mapping differs from the first under one key only**, which it may have gained behind all others. -/
structure SameBut (key : Key) (es fs : Entries) : Prop where
  keys : fs.keys = es.keys ∨ fs.keys = es.keys ++ [key]
  others : fs.besides key = es.besides key

theorem besides_set (hself : key.same key = true) (v : Value) (es : Entries) :
    besides key (es.set key v) = es.besides key := by
  induction es with
  | nil => simp [besides, set, hself]
  | cons e es ih =>
    obtain ⟨k, w⟩ := e
    rw [set]
    split
    · next hk => simp [besides, hk]
    · next hk =>
      show besides key ((k, w) :: set key v es) = _
      simpa [besides, hk] using ih

theorem sameBut_set (hself : key.same key = true) (v : Value) (es : Entries) : SameBut key es (es.set key v) := by
  constructor
  case keys =>
    cases hkey : es.has key with
    | true => exact .inl (keys_set_of_has hkey v)
    | false =>
      rw [set_of_not_has hkey]
      exact .inr List.map_append
  case others => exact besides_set hself v es

end Entries

namespace Value

/-- **Merging into a path is merging the document with that path alone.**  On the way to the path the document has
mappings or nothing; no other path and no other part of the document changes, and under the path the override is
laid over what stood there. -/
theorem mergeRoute_agrees (document os : Entries) (path : String) (hos : os.Unrepeated)
    (hpaths : (Value.map document).MapAt [.str "paths"])
    (hitem : (Value.map document).MapAt [.str "paths", .str path]) :
    ∃ merged paths : Entries,
      (Value.map document).mergeRoute path (.map os) = .ok (.map merged) ∧
      (Value.map document).mergeInto (.object [("paths", .object [(path, .map os)])]) = .ok (.map merged) ∧
      document.SameBut (.str "paths") merged ∧
      merged.get? (.str "paths") = some (.map paths) ∧
      (entriesOf (document.get? (.str "paths"))).SameBut (.str path) paths ∧
      paths.get? (.str path) =
        some (Value.over ((Value.map document).at? [.str "paths", .str path]) (.map os)) := by
  have hself : ∀ s : String, (Key.str s).same (.str s) = true := fun s => by simp
  have hroute := mergeRoute_eq_over rfl hos hpaths hitem
  have hwhole : (Value.map document).mergeInto (pathOverride path (.map os)) = _ := mergeInto_eq_over rfl rfl
  rw [over_pathOverride] at hroute hwhole
  have hstood : (Value.map document).at? [.str "paths", .str path]
      = (entriesOf (document.get? (.str "paths"))).get? (.str path) := by
    rw [at?_map_cons, bind_at?_cons]
    simp
  generalize entriesOf (document.get? (.str "paths")) = before at hroute hwhole hstood ⊢
  rw [hstood]
  refine ⟨_, before.set (.str path) (Value.over (before.get? (.str path)) (.map os)), hroute, hwhole,
    Entries.sameBut_set (hself "paths") _ _, ?_, Entries.sameBut_set (hself path) _ _, ?_⟩
  · rw [Entries.get?_set, if_pos (hself "paths")]
  · rw [Entries.get?_set, if_pos (hself path)]

end Value

end RouteDoc
