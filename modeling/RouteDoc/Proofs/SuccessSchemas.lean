import Mathlib.Logic.Relation
import RouteDoc.Proofs.Completion
import RouteDoc.Proofs.DocumentShape
import RouteDoc.Proofs.Flattening
import RouteDoc.Proofs.ValueEquality

/-!
# The schemas of a success

A success is described by the fragments of its result types, each of which counts where it occurs first.  Lists of
result types that say the same in other words are answered alike: types without values make no difference, nor do
repetitions, nor does it matter whether a union or its members are listed.  Only a member that is itself a union has
no fragment inside a union, but is split where it is listed by itself.

* `Responses.firsts`, `Responses.distinct_eq_firsts` — the schemas that equal none before them;
* `Responses.Presents` — the content of a success, by its schemas;
* `Scope.Rephrases`, `Scope.AnsweredAlike` — other words for result types, and what they do not change;
* `Scope.success_schemas` — the schemas of a success;
* `Scope.rephrased_differently` — unions inside unions.
-/

namespace RouteDoc

/-! ### Equal schemas -/

namespace Schema

variable {s t u : Schema}

/-- **Equality of schemas is transitive**: what two steps take from one class, both together do. -/
theorem same_trans (hst : s.same t = true) (htu : t.same u = true) : s.same u = true := by
  refine Value.same_mono (fun h => ?_) (Value.same_trans hst htu)
  rw [Bool.and_eq_true, beq_iff_eq, beq_iff_eq] at h
  exact beq_iff_eq.2 (h.1.trans h.2)

theorem Shaped.same_comm (hs : s.Shaped) (ht : t.Shaped) : s.same t = t.same s := by
  rw [same, same, hs.textKeyed.same_comm ht.textKeyed, Bool.beq_comm]

/-- A schema equals itself, whatever values it lists. -/
theorem Shaped.same_self (hs : s.Shaped) : s.same s = true := by
  rw [same, beq_self_eq_true]
  exact hs.textKeyed.same_self

end Schema

namespace Responses

variable {schemas repeated : List Schema} {out before : List Schema} {s t : Schema}

/-! ### First occurrences -/

/-- Some schema of the list equals the given one. -/
def covers (out : List Schema) (s : Schema) : Bool := out.any fun other => other.same s

/-- The schemas that equal none before them, where others came first. -/
def firstsAfter (before : List Schema) : List Schema → List Schema
  | [] => []
  | s :: rest =>
    if covers before s then firstsAfter (before ++ [s]) rest else s :: firstsAfter (before ++ [s]) rest

/-- The schemas that equal none before them, in order. -/
def firsts (schemas : List Schema) : List Schema := firstsAfter [] schemas

theorem covers_append (out other : List Schema) (s : Schema) :
    covers (out ++ other) s = (covers out s || covers other s) := List.any_append

/-- A schema that is left out equals one that is kept, so it makes no difference to the schemas after it. -/
theorem covers_insertNew (out : List Schema) (s t : Schema) :
    covers (insertNew out s) t = covers (out ++ [s]) t := by
  unfold insertNew
  split
  · next h =>
    rw [covers_append, Bool.eq_iff_iff, Bool.or_eq_true]
    refine ⟨.inl, fun hcovers => hcovers.elim id fun hs => ?_⟩
    obtain ⟨other, hother, hsame⟩ := List.any_eq_true.1 h
    have hst : s.same t = true := by simpa [covers] using hs
    exact List.any_eq_true.2 ⟨other, hother, Schema.same_trans hsame hst⟩
  · rfl

/-- **Adding schemas one by one keeps the first occurrences**: what is kept covers what all schemas before cover. -/
theorem foldl_insertNew (h : ∀ t, covers out t = covers before t) :
    schemas.foldl insertNew out = out ++ firstsAfter before schemas := by
  induction schemas generalizing out before with
  | nil => exact (List.append_nil out).symm
  | cons s rest ih =>
    have hstep : ∀ t, covers (insertNew out s) t = covers (before ++ [s]) t := by
      intro t
      rw [covers_insertNew, covers_append, covers_append, h t]
    rw [List.foldl_cons, ih hstep, firstsAfter, ← h s]
    unfold insertNew
    show (if covers out s = true then out else out ++ [s]) ++ _ = _
    split
    · rfl
    · exact List.append_assoc _ _ _

theorem distinct_eq_firsts (schemas : List Schema) : distinct schemas = firsts schemas := by
  have hsame : ∀ t, covers [] t = covers [] t := fun _ => rfl
  exact foldl_insertNew hsame

/-- No schema that is kept equals one before it. -/
theorem pairwise_foldl_insertNew (h : out.Pairwise fun s t => s.same t = false) :
    (schemas.foldl insertNew out).Pairwise fun s t => s.same t = false := by
  induction schemas generalizing out with
  | nil => exact h
  | cons s rest ih =>
    rw [List.foldl_cons]
    apply ih
    unfold insertNew
    split
    · exact h
    · next hnew =>
      refine List.pairwise_append.2 ⟨h, List.pairwise_singleton _ _, fun other hother t ht => ?_⟩
      rw [List.mem_singleton.1 ht]
      rw [List.any_eq_true] at hnew
      exact Bool.eq_false_iff.2 fun hsame => hnew ⟨other, hother, hsame⟩

/-! ### Repetitions -/

theorem covers_foldl (h : covers out t = true) : covers (schemas.foldl insertNew out) t = true := by
  induction schemas generalizing out with
  | nil => exact h
  | cons s rest ih =>
    rw [List.foldl_cons]
    apply ih
    rw [covers_insertNew, covers_append, h]
    rfl

/-- A schema that was added, and equals itself, is covered. -/
theorem covers_of_mem (hself : t.same t = true) (ht : t ∈ schemas) :
    covers (schemas.foldl insertNew out) t = true := by
  obtain ⟨before, after, rfl⟩ := List.append_of_mem ht
  rw [List.foldl_append, List.foldl_cons]
  apply covers_foldl
  rw [covers_insertNew, covers_append, Bool.or_eq_true]
  exact .inr (by simpa [covers] using hself)

theorem foldl_insertNew_of_covers (h : ∀ t ∈ schemas, covers out t = true) : schemas.foldl insertNew out = out := by
  induction schemas with
  | nil => rfl
  | cons s rest ih =>
    have hs : insertNew out s = out := if_pos (h s List.mem_cons_self)
    rw [List.foldl_cons, hs]
    exact ih fun t ht => h t (List.mem_cons_of_mem _ ht)

/-- **Repeated schemas make no difference**, as long as they equal themselves. -/
theorem distinct_repeated (hself : ∀ t ∈ repeated, t.same t = true) (hsub : repeated ⊆ schemas)
    (after : List Schema) : distinct (schemas ++ repeated ++ after) = distinct (schemas ++ after) := by
  have hcovers : ∀ t ∈ repeated, covers (schemas.foldl insertNew []) t = true := fun t ht =>
    covers_of_mem (hself t ht) (hsub ht)
  rw [distinct, distinct, List.foldl_append, List.foldl_append, List.foldl_append,
    foldl_insertNew_of_covers hcovers]

/-! ### The content of a success -/

/-- What is written under the success. -/
def content? (r : Responses) : Option Value := (r.toValue.get? "200").bind fun success => success.get? "content"

/-- The content in which a schema is given. -/
def jsonContent (schema : Value) : Value := .object [("application/json", .object [("schema", schema)])]

/-- Without schemas a success has no content; one schema stands alone, and several are a choice. -/
inductive Presents : List Value → Option Value → Prop
  | nothing : Presents [] none
  | one (schema : Value) : Presents [schema] (some (jsonContent schema))
  | choice {schemas : List Value} : 2 ≤ schemas.length →
      Presents schemas (some (jsonContent (.object [("anyOf", .list schemas)])))

theorem presents_content? (schemas : List Schema) : Presents (schemas.map Schema.toValue) (content? ⟨schemas⟩) := by
  match schemas with
  | [] => exact .nothing
  | [s] => exact .one s.toValue
  | s :: t :: rest => exact .choice (by simp)

end Responses

namespace Scope

variable {scope : Scope}

/-! ### Running through errands once more -/

/-- Errands that were run through already can be left out: their types are seen, and none of them fails. -/
theorem traverses_repeated_iff {seen : List String} {es es' rest : List Errand} {us : List TypeExpr} (h : es' ⊆ es) :
    (∃ ws, scope.Traverses seen (es ++ (es' ++ rest)) us ws none) ↔
      ∃ ws, scope.Traverses seen (es ++ rest) us ws none := by
  -- what the errands before have seen lets the repeated ones enter nothing
  have hagain : ∀ {us₁ : List TypeExpr} {ws₁ : List Warning}, scope.Traverses seen es us₁ ws₁ none →
      ∃ ws₂, scope.Traverses (seen ++ scope.namesOf us₁) es' [] ws₂ none := by
    intro us₁ ws₁ h₁
    refine Traverses.of_seen (fun f hf => (h₁.stop_notMem f).1 (h hf)) fun t ht => ?_
    exact h₁.closed (.inl (h ht))
  constructor
  · intro ⟨ws, htrav⟩
    obtain ⟨us₁, us₂, ws₁, ws₂, rfl, rfl, h₁, h₂⟩ := htrav.split
    obtain ⟨us₃, us₄, ws₃, ws₄, rfl, rfl, h₃, h₄⟩ := h₂.split
    obtain ⟨ws₅, h₅⟩ := hagain h₁
    obtain ⟨rfl, -, -⟩ := h₃.unique h₅
    exact ⟨_, h₁.append (by simpa using h₄)⟩
  · intro ⟨ws, htrav⟩
    obtain ⟨us₁, us₂, ws₁, ws₂, rfl, rfl, h₁, h₂⟩ := htrav.split
    obtain ⟨ws₅, h₅⟩ := hagain h₁
    exact ⟨_, h₁.append (h₅.append (by simpa using h₂))⟩

/-- A step that follows its errands ends well exactly where these are run through without failure. -/
theorem Follows.run'_eq_ok_iff {α : Type} {step : Build α} {es : List Errand} {a r : α} {b : Builder}
    {registry : Registry} (h : scope.Follows scope.depth step es a) :
    (∃ ws, step.run' b = (.ok r, ⟨registry, ws⟩)) ↔
      r = a ∧ ∃ us, (∃ ws, scope.Traverses b.registry.names es us ws none) ∧
        registry = b.registry ++ us.map scope.finished := by
  constructor
  · intro ⟨after, hrun⟩
    obtain ⟨rfl, us, ws, htrav, hafter⟩ := h.of_ok hrun
    exact ⟨rfl, us, ⟨ws, htrav⟩, congrArg Builder.registry hafter⟩
  · rintro ⟨rfl, us, ⟨ws, htrav⟩, rfl⟩
    obtain ⟨us', ws', failure, htrav', hout⟩ := h.total b
    obtain ⟨rfl, rfl, rfl⟩ := htrav'.unique htrav
    exact ⟨_, hout⟩

/-! ### Other words for result types -/

/-- Two lists of result types are answered alike: from every registry one gives responses, and leaves a registry,
exactly when the other does.  The notices may differ. -/
def AnsweredAlike (scope : Scope) (results results' : List TypeExpr) : Prop :=
  ∀ (b : Builder) (r : Responses) (registry : Registry),
    (∃ ws, (scope.responses results).run' b = (.ok r, ⟨registry, ws⟩)) ↔
      ∃ ws, (scope.responses results').run' b = (.ok r, ⟨registry, ws⟩)

/-- Other words for the same result types: a type without values is added, a type is repeated later, or a union is
replaced by its members other than null. -/
inductive Rephrases (scope : Scope) : List TypeExpr → List TypeExpr → Prop
  | absence {before after : List TypeExpr} {t : TypeExpr} : scope.types.tag t = .nothing →
      Rephrases scope (before ++ after) (before ++ t :: after)
  | repetition {before between after : List TypeExpr} {t : TypeExpr} :
      Rephrases scope (before ++ t :: between ++ after) (before ++ t :: between ++ t :: after)
  | members {before after members : List TypeExpr} {t : TypeExpr} {nullable : Bool} :
      t.members? = some (nullable, members) → (∀ u ∈ members, u.members? = none) →
      Rephrases scope (before ++ t :: after) (before ++ members ++ after)

theorem concreteTypes_append (results others : List TypeExpr) :
    Responses.concreteTypes (results ++ others) = Responses.concreteTypes results ++ Responses.concreteTypes others :=
  List.flatMap_append

theorem concreteTypes_cons (t : TypeExpr) (results : List TypeExpr) :
    Responses.concreteTypes (t :: results) = Responses.concreteTypes [t] ++ Responses.concreteTypes results := by
  rw [← concreteTypes_append]
  rfl

theorem concreteTypes_of_members?_eq_none {results : List TypeExpr} (h : ∀ t ∈ results, t.members? = none) :
    Responses.concreteTypes results = results := by
  induction results with
  | nil => rfl
  | cons t results ih =>
    have ht : Responses.concreteTypes [t] = [t] := by
      rw [Responses.concreteTypes, List.flatMap_cons, h t List.mem_cons_self]
      rfl
    rw [concreteTypes_cons, ih fun u hu => h u (List.mem_cons_of_mem _ hu), ht]
    rfl

theorem concreteTypes_union {t : TypeExpr} {members : List TypeExpr} {nullable : Bool}
    (h : t.members? = some (nullable, members)) : Responses.concreteTypes [t] = members := by
  rw [Responses.concreteTypes, List.flatMap_cons, h]
  exact List.append_nil members

/-- A type without values has no fragment, and nothing is to be done for it. -/
theorem of_tag_eq_nothing {t : TypeExpr} (h : scope.types.tag t = .nothing) :
    scope.fragment t = none ∧ scope.typeErrands t = [] := by
  have hd : scope.describe t = .ok ⟨none, none, []⟩ := by
    rw [describe, if_pos (by simpa using h)]
  rw [fragment, typeErrands, hd]
  exact ⟨rfl, rfl⟩

/-- Lists with the same fragments and errands are answered alike. -/
theorem answeredAlike_of {results results' : List TypeExpr}
    (hschemas : scope.responsesOf results = scope.responsesOf results')
    (herrands : ∀ (seen : List String) (us : List TypeExpr),
      (∃ ws, scope.Traverses seen ((Responses.concreteTypes results).flatMap scope.typeErrands) us ws none) ↔
        ∃ ws, scope.Traverses seen ((Responses.concreteTypes results').flatMap scope.typeErrands) us ws none) :
    scope.AnsweredAlike results results' := by
  intro b r registry
  rw [(follows_responses results).run'_eq_ok_iff, (follows_responses results').run'_eq_ok_iff, hschemas]
  simp only [herrands]

/-- Adding a type without values changes no response. -/
theorem answeredAlike_absence {t : TypeExpr} (ht : scope.types.tag t = .nothing) (before after : List TypeExpr) :
    scope.AnsweredAlike (before ++ after) (before ++ t :: after) := by
  have hne : scope.types.tag t ≠ .union := by simp [ht]
  have hmembers : t.members? = none := members?_eq_none hne
  have hone : Responses.concreteTypes [t] = [t] := concreteTypes_of_members?_eq_none (by simpa using hmembers)
  have hconcrete : Responses.concreteTypes (before ++ t :: after)
      = Responses.concreteTypes before ++ ([t] ++ Responses.concreteTypes after) := by
    rw [concreteTypes_append, concreteTypes_cons t, hone]
  obtain ⟨hfragment, herrands⟩ := of_tag_eq_nothing ht
  apply answeredAlike_of
  · rw [responsesOf, responsesOf, hconcrete, concreteTypes_append]
    simp [hfragment]
  · intro seen us
    rw [hconcrete, concreteTypes_append]
    simp [herrands]

/-- Repeating types changes no response: their fragments are there already, and their errands were run through. -/
theorem answeredAlike_repetition {repeated before : List TypeExpr}
    (hsub : Responses.concreteTypes repeated ⊆ Responses.concreteTypes before) (after : List TypeExpr) :
    scope.AnsweredAlike (before ++ after) (before ++ (repeated ++ after)) := by
  apply answeredAlike_of
  · rw [responsesOf, responsesOf, concreteTypes_append, concreteTypes_append, concreteTypes_append,
      List.filterMap_append, List.filterMap_append, List.filterMap_append, ← List.append_assoc,
      Responses.distinct_repeated]
    · intro s hs
      obtain ⟨u, hu, hfragment⟩ := List.mem_filterMap.1 hs
      exact (shaped_fragment hfragment).same_self
    · intro s hs
      obtain ⟨u, hu, hfragment⟩ := List.mem_filterMap.1 hs
      exact List.mem_filterMap.2 ⟨u, hsub hu, hfragment⟩
  · intro seen us
    rw [concreteTypes_append, concreteTypes_append, concreteTypes_append, List.flatMap_append,
      List.flatMap_append, List.flatMap_append]
    refine (traverses_repeated_iff fun e he => ?_).symm
    obtain ⟨u, hu, he⟩ := List.mem_flatMap.1 he
    exact List.mem_flatMap.2 ⟨u, hsub hu, he⟩

/-- Replacing a union by its members changes no response: they count for it anyway. -/
theorem answeredAlike_members {t : TypeExpr} {members : List TypeExpr} {nullable : Bool}
    (ht : t.members? = some (nullable, members)) (hmembers : ∀ u ∈ members, u.members? = none)
    (before after : List TypeExpr) : scope.AnsweredAlike (before ++ t :: after) (before ++ members ++ after) := by
  have hsame : Responses.concreteTypes (before ++ t :: after)
      = Responses.concreteTypes (before ++ members ++ after) := by
    rw [concreteTypes_append, concreteTypes_cons t, concreteTypes_union ht, concreteTypes_append,
      concreteTypes_append, concreteTypes_of_members?_eq_none hmembers, List.append_assoc]
  exact answeredAlike_of (by rw [responsesOf, responsesOf, hsame]) fun seen us => by rw [hsame]

/-- **One change of words changes no response.** -/
theorem Rephrases.answeredAlike {results results' : List TypeExpr} (h : scope.Rephrases results results') :
    scope.AnsweredAlike results results' := by
  cases h with
  | absence ht => exact answeredAlike_absence ht _ _
  | @repetition before between after t =>
    have hsub : Responses.concreteTypes [t] ⊆ Responses.concreteTypes (before ++ t :: between) := by
      rw [concreteTypes_append, concreteTypes_cons t between]
      intro u hu
      exact List.mem_append_right _ (List.mem_append_left _ hu)
    exact answeredAlike_repetition hsub after
  | members ht hmembers => exact answeredAlike_members ht hmembers _ _

/-- Any number of changes of words changes no response. -/
theorem answeredAlike_of_rephrased {results results' : List TypeExpr}
    (h : Relation.ReflTransGen scope.Rephrases results results') : scope.AnsweredAlike results results' := by
  induction h with
  | refl => exact fun _ _ _ => Iff.rfl
  | tail _ hstep ih => exact fun b r registry => (ih b r registry).trans (hstep.answeredAlike b r registry)

/-- **The schemas of a success.**  From every registry, the responses are given, unless a description fails, by the
fragments of the result types, unions replaced by their members other than null: those that can be built and equal
none before them, in order, and no two of them equal.  Without any the success has no content, one is its schema, and
several are a choice.  Lists of result types that say the same in other words are answered alike. -/
theorem success_schemas (scope : Scope) (results : List TypeExpr) :
    scope.Gives (scope.responses results) (scope.responsesOf results) ∧
      (scope.responsesOf results).schemas
        = Responses.firsts ((Responses.concreteTypes results).filterMap scope.fragment) ∧
      (scope.responsesOf results).schemas.Pairwise
        (fun s t => s.same t = false ∧ t.same s = false) ∧
      Responses.Presents ((scope.responsesOf results).schemas.map Schema.toValue)
        (scope.responsesOf results).content? ∧
      ∀ results', Relation.ReflTransGen scope.Rephrases results results' → scope.AnsweredAlike results results' := by
  refine ⟨(follows_responses results).gives fun f hf => ?_, Responses.distinct_eq_firsts _, ?_,
    Responses.presents_content? _, fun results' h => answeredAlike_of_rephrased h⟩
  · obtain ⟨t, -, ht⟩ := List.mem_flatMap.1 hf
    exact isCause_of_typeErrands ht
  · have hshaped : ∀ s ∈ (scope.responsesOf results).schemas, s.Shaped := by
      intro s hs
      obtain ⟨t, -, ht⟩ := List.mem_filterMap.1 (mem_of_mem_distinct hs)
      exact shaped_fragment ht
    have hpairwise : (scope.responsesOf results).schemas.Pairwise fun s t => s.same t = false :=
      Responses.pairwise_foldl_insertNew List.Pairwise.nil
    exact hpairwise.imp_of_mem fun {s t} hs ht hne => ⟨hne, by rw [(hshaped t ht).same_comm (hshaped s hs), hne]⟩

/-- How many schemas the success of the given result types has, from an empty registry. -/
def schemaCount (scope : Scope) (results : List TypeExpr) : Option Nat :=
  ((scope.responses results).run' ⟨[], []⟩).1.toOption.map fun r => r.schemas.length

/-- Pets, and an enumeration of spreads, one of which is a list that holds a NaN. -/
def spreads : Scope :=
  ⟨[⟨"Pet", "Pet", .dataclass, [], [], none⟩,
    ⟨"Spread", "Spread", .enumeration .plain [("unknown", .gathering .list [.float (.nan false)])], [], [], none⟩], 2024, 0⟩

/-- Pets, or pets and texts or null, said in two ways. -/
theorem pets_rephrased :
    let pet := TypeExpr.declared "Pet"
    let choice := TypeExpr.unionOf [pet, .builtin .str, .nullType]
    choice.members? = some (true, [pet, .builtin .str]) ∧
      spreads.AnsweredAlike [pet, choice] [pet, .noReturn, pet, .builtin .str, pet] := by
  intro pet choice
  refine ⟨rfl, (success_schemas spreads [pet, choice]).2.2.2.2 _ ?_⟩
  have hunion : spreads.Rephrases ([pet] ++ choice :: []) ([pet] ++ [pet, .builtin .str] ++ []) :=
    .members rfl (by simp [pet, TypeExpr.members?, TypeExpr.stripWrappers])
  have habsence : spreads.Rephrases ([pet] ++ [pet, .builtin .str]) ([pet] ++ .noReturn :: [pet, .builtin .str]) :=
    .absence rfl
  have hrepeated : spreads.Rephrases ([] ++ pet :: [.noReturn, pet, .builtin .str] ++ [])
      ([] ++ pet :: [.noReturn, pet, .builtin .str] ++ pet :: []) := .repetition
  exact ((Relation.ReflTransGen.single hunion).tail habsence).tail hrepeated

/-- A computed NaN among the values of an enumeration is the same one each time. -/
example : spreads.schemaCount [.declared "Spread", .declared "Spread"] = some 1 := by decide +kernel

/-- **Unions inside unions are not split.**  A union that is a member of another one, required in a mapping with fixed
keys, has no fragment there, and two of its own where it is listed by itself. -/
theorem rephrased_differently :
    let inner := TypeExpr.wrapped .required (.unionOf [.builtin .int, .builtin .str])
    let outer := TypeExpr.unionOf [inner, .nullType]
    outer.members? = some (true, [inner]) ∧ spreads.schemaCount [outer] = some 0 ∧
      spreads.schemaCount [inner] = some 2 := by
  intro inner outer
  exact ⟨rfl, by decide +kernel, by decide +kernel⟩

end Scope

end RouteDoc
