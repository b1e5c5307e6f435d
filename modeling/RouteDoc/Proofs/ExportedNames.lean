import RouteDoc.Document
import RouteDoc.Proofs.Export
import RouteDoc.Proofs.Json.Names

/-!
# Names in exported documents

An override addresses the entry that has the very key it gives.  A key that is no text, such as a status code read as
a number, is another key than the text of it, although both are written alike.  So the text of a document can bear a
name twice in one object, and it does exactly where two keys of one mapping become one name; overrides that are keyed
by texts never lead there.

* `Entries.get?_merge_single` — which entry an override with one key addresses;
* `Documentation.exported_names_apart_iff` — when the objects of an exported text have distinct names;
* `Documentation.exported_names_clash` — a status code that is read as a number.
-/

namespace RouteDoc

open Value

/-- **An override addresses the entry under a text exactly when that text is its key.** -/
theorem Entries.get?_merge_single (base : Entries) (key : Key) (value : Value) (name : String) :
    (Entries.merge base [(key, value)]).get? (.str name) =
      if key = .str name then some (Value.over (base.get? (.str name)) value) else base.get? (.str name) := by
  rw [Entries.merge, Entries.merge, Entries.get?_set]
  by_cases hkey : key = .str name
  · rw [hkey, if_pos rfl, if_pos (by simp)]
  · rw [if_neg hkey, if_neg fun hsame => hkey ((Key.same_str_iff key name).1 hsame)]

namespace Documentation

/-- **When the objects of an exported text have distinct names.**  Let a documentation be made by any calls, with
overrides in any order among them, and let its document be written as JSON.  The text has a tree, and by any tree of it
no object bears a name twice exactly when no two keys of one mapping in the document become one name.  That is so
whenever all overrides are keyed by texts, with a mapping under each of their paths. -/
theorem exported_names_apart_iff (s : Settings) (calls : List Call) (text : String)
    (h : Json.render ((new s).afterCalls calls).document = .ok text) :
    (∃ source : Json.Source, text.toList = source.chars) ∧
      (∀ source : Json.Source, text.toList = source.chars →
        (source.namesApart = true ↔ ((new s).afterCalls calls).document.namesApart = true)) ∧
      ((∀ c ∈ calls, c.Regular fun _ => True) → ((new s).afterCalls calls).document.namesApart = true) := by
  obtain ⟨hexists, hall⟩ := Json.namesApart_iff_of_render h
  refine ⟨hexists, hall, fun hcalls => ?_⟩
  have hregular : ((new s).afterCalls calls).document.Regular fun _ => True :=
    regular_afterCalls (fun _ _ => trivial) (regular_new (fun _ _ => trivial) s) hcalls
  exact hregular.textKeyed.namesApart

/-- A route for pets. -/
def petsRoute : Route := ⟨"/pets", "GET", [], [], [], [], [], []⟩

/-- An override of the response to a status code, in YAML. -/
def petsText (status : String) : String :=
  "paths:\n  /pets:\n    get:\n      responses:\n        " ++ status ++ ":\n          description: All pets\n"

/-- What the text of an override file denotes. -/
def loaded (text : String) : Value :=
  match Document.ofText ⟨"", ["override.yaml"]⟩ text.toList with
  | .ok document => document.value
  | .error _ => .null

/-- The run that documents the route and applies an override read from a file. -/
def petsCalls (status : String) : List Call :=
  [.register ⟨[], 2024, 0⟩ petsRoute, .mergeInto (loaded (petsText status))]

/-- With the status code in quotes the override goes into the response that was there, and no name is borne twice. -/
theorem exported_names_apart_iff_quoted :
    ∃ text, Json.render ((new default).afterCalls (petsCalls "'200'")).document = .ok text ∧
      (∃ source : Json.Source, text.toList = source.chars) ∧
        ∀ source : Json.Source, text.toList = source.chars → source.namesApart = true := by
  have hrender : (Json.render ((new default).afterCalls (petsCalls "'200'")).document).toBool = true := by
    decide +kernel
  have hapart : ((new default).afterCalls (petsCalls "'200'")).document.namesApart = true := by decide +kernel
  cases htext : Json.render ((new default).afterCalls (petsCalls "'200'")).document with
  | error f =>
    rw [htext] at hrender
    cases hrender
  | ok text =>
    obtain ⟨hexists, hall, -⟩ := exported_names_apart_iff default (petsCalls "'200'") text htext
    exact ⟨text, rfl, hexists, fun source hsource => (hall source hsource).2 hapart⟩

/-- **A status code that is read as a number misses its response.**  The override file is read, its mapping is applied,
and the document is written; and by every tree of the text some object bears a name twice. -/
theorem exported_names_clash :
    (Document.ofText ⟨"", ["override.yaml"]⟩ (petsText "200").toList).toBool = true ∧
      ∃ text, Json.render ((new default).afterCalls (petsCalls "200")).document = .ok text ∧
        (∃ source : Json.Source, text.toList = source.chars) ∧
          ∀ source : Json.Source, text.toList = source.chars → source.namesApart = false := by
  have hread : (Document.ofText ⟨"", ["override.yaml"]⟩ (petsText "200").toList).toBool = true := by decide +kernel
  have hrender : (Json.render ((new default).afterCalls (petsCalls "200")).document).toBool = true := by
    decide +kernel
  have hclash : ((new default).afterCalls (petsCalls "200")).document.namesApart = false := by decide +kernel
  cases htext : Json.render ((new default).afterCalls (petsCalls "200")).document with
  | error f =>
    rw [htext] at hrender
    cases hrender
  | ok text =>
    obtain ⟨hexists, hall⟩ := Json.namesApart_iff_of_render htext
    refine ⟨hread, text, rfl, hexists, fun source hsource => Bool.eq_false_iff.2 fun hsrc => ?_⟩
    rw [(hall source hsource).1 hsrc] at hclash
    cases hclash

end Documentation

end RouteDoc
