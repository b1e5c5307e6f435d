import RouteDoc.Proofs.Flattening

/-!
# Examples of date-times

The description of a date-time comes with an example and a note on time zones.  Where a date-time is a parameter,
both stand on the entry of the parameter and not in its schema.  The description decides by the type without null, by
way of its members; the entry decides again, by the type that is left when wrappers and null are stripped.  Both
decisions agree.

* `Schema.get?_sample`, `Schema.get?_note` — where the example and the note are written;
* `Value.NotesOutside` — an entry with both, or with neither, and a schema without them;
* `Scope.entry_notesOutside` — every entry has them exactly when its schema has the format of date-times.
-/

namespace RouteDoc

namespace Schema

@[simp] theorem sample?_withoutSample (s : Schema) : s.withoutSample.sample? = none := by cases s <;> rfl

theorem get?_sample (s : Schema) : s.toValue.get? "example" = s.sample?.map .str := by
  cases s <;> simp [get?_reference, get?_array, get?_simple, sample?]

theorem get?_note (s : Schema) : s.toValue.get? "description" = s.sample?.map fun _ => .str dateTimeNote := by
  cases s <;> simp [get?_reference, get?_array, get?_simple, sample?]

theorem get?_format_withoutSample (s : Schema) :
    s.withoutSample.toValue.get? "format" = s.toValue.get? "format" := by
  cases s <;> simp [get?_simple, withoutSample]

end Schema

namespace RequestParameter

theorem get?_schema (e : RequestParameter) : e.toValue.get? "schema" = some e.schema.toValue := rfl

theorem get?_sample (e : RequestParameter) : e.toValue.get? "example" = e.sample.map .str := by
  rw [toValue, members, Value.get?_object_append, Schema.get?_sampleMembers]
  rfl

theorem get?_note (e : RequestParameter) :
    e.toValue.get? "description" = e.sample.map fun _ => .str dateTimeNote := by
  rw [toValue, members, Value.get?_object_append, Schema.get?_sampleMembers]
  rfl

end RequestParameter

namespace Scope

variable {scope : Scope} {location : Location} {p : Param}

/-- The entry that a step gives is the one of the parameter, and its type has a description. -/
theorem of_entry_eq_ok {b after : Builder} {e : RequestParameter}
    (h : (scope.entry location p).run' b = (.ok (some e), after)) :
    ∃ s, scope.fragment (scope.types.extractType p.type) = some s ∧
      e = scope.entryOf location p s (defaultOf p) := by
  obtain ⟨s, hs, he⟩ := Option.map_eq_some_iff.1 ((follows_entry location p).of_ok h).1.symm
  exact ⟨s, hs, he.symm⟩

/-- The description that stands in the entry of a parameter has no example. -/
theorem sample?_schema_entryOf (location : Location) {s : Schema} (default : Option Value)
    (hlone : (scope.types.extractType p.type).isLoneUnion = false)
    (hs : scope.fragment (scope.types.extractType p.type) = some s) :
    (scope.entryOf location p s default).schema.schema.sample? = none := by
  have hsample := sample?_of_fragment hlone hs
  unfold entryOf
  dsimp only
  split
  · exact s.sample?_withoutSample
  · next hdate => rw [hsample, if_neg hdate]

/-- Its format is that of date-times exactly when the type, but for null, is a date-time. -/
theorem get?_format_entryOf (location : Location) {s : Schema} (default : Option Value)
    (hlone : (scope.types.extractType p.type).isLoneUnion = false)
    (hs : scope.fragment (scope.types.extractType p.type) = some s) :
    (scope.entryOf location p s default).schema.toValue.get? "format" = some (.str "date-time") ↔
      scope.types.isDateTime (scope.types.extractType p.type).stripOptional = true := by
  have hsample := sample?_of_fragment hlone hs
  have hformat := (sound_of_fragment hs).format_iff
  rw [Property.get?_toValue, if_neg (by decide), Option.or_none]
  unfold entryOf
  dsimp only
  split
  · next hdate =>
    rw [Schema.get?_format_withoutSample, hformat, hsample, if_pos hdate]
    simp [hdate]
  · next hdate =>
    rw [hformat, hsample, if_neg hdate]
    simp [hdate]

end Scope

/-- What is written of a date-time stands on an entry and not in the schema in it: the schema has neither an example
nor a note, and the entry has each of them exactly when the format of the schema is that of date-times. -/
structure Value.NotesOutside (entry schema : Value) : Prop where
  schema_eq : entry.get? "schema" = some schema
  no_example : schema.get? "example" = none
  no_description : schema.get? "description" = none
  example_iff : (entry.get? "example").isSome = true ↔ schema.get? "format" = some (.str "date-time")
  description_iff : (entry.get? "description").isSome = true ↔ schema.get? "format" = some (.str "date-time")

namespace Scope

variable {scope : Scope} {location : Location} {p : Param}

/-- **The example and the note of a date-time stand on the parameter alone.**  Whenever a parameter gets an entry,
whatever its type is, wherever it is read from and whatever is registered, the schema in the entry has neither; the
entry has both exactly when the format of its schema is that of date-times, which is when the type, but for null, is a
date-time; and they are the example of the year and the note on time zones.  Unions of a single type are left aside:
written as a union, a single type is that type. -/
theorem entry_notesOutside (scope : Scope) (location : Location) (p : Param) {b after : Builder}
    {e : RequestParameter} (hlone : (scope.types.extractType p.type).isLoneUnion = false)
    (h : (scope.entry location p).run' b = (.ok (some e), after)) :
    ∃ schema, e.toValue.NotesOutside schema ∧
      (schema.get? "format" = some (.str "date-time") ↔
        scope.types.isDateTime (scope.types.extractType p.type).stripOptional = true) ∧
      (schema.get? "format" = some (.str "date-time") →
        e.toValue.get? "example" = some (.str (dateTimeSample scope.year)) ∧
          e.toValue.get? "description" = some (.str dateTimeNote)) := by
  obtain ⟨s, hs, rfl⟩ := of_entry_eq_ok h
  have hnone := sample?_schema_entryOf location (defaultOf p) hlone hs
  have hformat := get?_format_entryOf location (defaultOf p) hlone hs
  have hsample : (scope.entryOf location p s (defaultOf p)).sample =
      if scope.types.isDateTime (scope.types.extractType p.type).stripOptional then some (dateTimeSample scope.year)
      else none := rfl
  refine ⟨(scope.entryOf location p s (defaultOf p)).schema.toValue, ⟨RequestParameter.get?_schema _, ?_, ?_, ?_, ?_⟩,
    hformat, fun hf => ?_⟩
  · rw [Property.get?_toValue, Schema.get?_sample, hnone]
    rfl
  · rw [Property.get?_toValue, Schema.get?_note, hnone]
    rfl
  · rw [RequestParameter.get?_sample, hformat, hsample]
    split <;> simp_all
  · rw [RequestParameter.get?_note, hformat, hsample]
    split <;> simp_all
  · rw [RequestParameter.get?_sample, RequestParameter.get?_note, hsample, if_pos (hformat.1 hf)]
    exact ⟨rfl, rfl⟩

/-- Stamps in universal time, which are stamps, which are date-times; and an extractor of terms, which reads any type
from the query. -/
def stays : Scope :=
  ⟨[⟨"UtcStamp", "UtcStamp", .derived (.declared "Stamp"), [], [], none⟩,
    ⟨"Stamp", "Stamp", .derived (.builtin .dateTime), [], [], none⟩,
    ⟨"Term", "Term", .extractor (.extractor .query none), [], [], none⟩], 2024, 0⟩

/-- The end of a stay, which may be open, below an annotation and the extractor of terms. -/
def stayEnd : Param :=
  ⟨"finish", .container (.declared "Term") false (some [.wrapped .annotated (.optional (.declared "UtcStamp"))]), true,
    false, .null⟩

/-- The dates of visits. -/
def visitDates : Param := ⟨"visits", .container .list false (some [.builtin .dateTime]), true, false, .null⟩

theorem exists_entry (scope : Scope) (location : Location) (p : Param) {b : Builder}
    (h : ((scope.entry location p).run' b).1.toOption.join.isSome = true) :
    ∃ e after, (scope.entry location p).run' b = (.ok (some e), after) := by
  rcases hrun : (scope.entry location p).run' b with ⟨_ | _ | e, after⟩
  · rw [hrun] at h
    cases h
  · rw [hrun] at h
    cases h
  · exact ⟨e, after, rfl⟩

/-- The end of a stay has the example on its entry; dates of visits have it in their items alone. -/
theorem entry_notesOutside_stays :
    ∃ finish visits after after' schema schema',
      (stays.entry .query stayEnd).run' ⟨[], []⟩ = (.ok (some finish), after) ∧
      (stays.entry (.other "cookie") visitDates).run' ⟨[], []⟩ = (.ok (some visits), after') ∧
      finish.toValue.NotesOutside schema ∧ schema.get? "format" = some (.str "date-time") ∧
      visits.toValue.NotesOutside schema' ∧ schema'.get? "format" ≠ some (.str "date-time") := by
  obtain ⟨finish, after, hfinish⟩ := exists_entry stays .query stayEnd (b := ⟨[], []⟩) (by decide +kernel)
  obtain ⟨visits, after', hvisits⟩ := exists_entry stays (.other "cookie") visitDates (b := ⟨[], []⟩)
    (by decide +kernel)
  obtain ⟨schema, houtside, hformat, -⟩ := entry_notesOutside stays .query stayEnd (by decide +kernel) hfinish
  obtain ⟨schema', houtside', hformat', -⟩ :=
    entry_notesOutside stays (.other "cookie") visitDates (by decide +kernel) hvisits
  refine ⟨finish, visits, after, after', schema, schema', hfinish, hvisits, houtside, ?_, houtside', ?_⟩
  · rw [hformat]
    decide +kernel
  · rw [ne_eq, hformat']
    decide +kernel

end Scope

end RouteDoc
