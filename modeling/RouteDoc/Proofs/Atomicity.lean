import RouteDoc.Proofs.Calls
import RouteDoc.Proofs.Reachability

/-!
# Failing calls

What a failing call leaves behind.  The end of a documentation is never undone or brought about by a failure,
and overrides that fail change nothing.  A failing description, however, leaves the types that it entered in
the registry, and a failing tag call leaves the row that it opened for its path.

* `Documentation.Agrees` — two documentations with the same document, registry, tags and state;
* `Documentation.hasPaths_afterCalls` — a document always has a place for paths;
* `Documentation.failing_call_agrees_iff` — when exactly a failing call leaves everything as it was.
-/

namespace RouteDoc

/-- The failing call to tag a path opens a row for it. -/
def Call.opensRow (d : Documentation) : Call → Bool
  | .tag path _ _ => !d.finalized && !(d.tagTable.lookup path).isSome
  | _ => false

namespace Documentation

variable {d e : Documentation} {c : Call} {f : Failure}

/-- The two have the same document, registry, tag table and state; notices given do not count. -/
structure Agrees (d e : Documentation) : Prop where
  document : e.document = d.document
  registry : e.registry = d.registry
  tagTable : e.tagTable = d.tagTable
  finalized : e.finalized = d.finalized

/-! ### A place for paths -/

theorem hasPaths_new (s : Settings) : (new s).document.HasPaths := ⟨_, rfl, rfl⟩

theorem hasPaths_publish (h : d.document.HasPaths) (known : Registry) (route : Route) (o : Operation) :
    (run (publish known route o) d).2.document.HasPaths := by
  rw [run_publish]
  split
  · exact h
  · next v hv =>
    have hv : v.HasPaths := by
      unfold withComponents at hv
      split at hv
      · cases hv
        exact h
      · exact h.of_mergeInto hv
    split
    · next w hw => exact hv.of_mergeRoute hw
    · rwa [hv.afterFailedRoute]

theorem hasPaths_register (h : d.document.HasPaths) (scope : Scope) (route : Route) :
    (run (register scope route) d).2.document.HasPaths := by
  cases hd : d.finalized with
  | true => rwa [run_register_of_finalized hd]
  | false =>
    rw [run_register hd]
    split
    · exact hasPaths_publish (by exact h) _ _ _
    · exact h

/-- **No call takes the place for paths away.** -/
theorem hasPaths_after (h : d.document.HasPaths) (c : Call) : (c.after d).document.HasPaths :=
  Call.after_cases (P := fun e => e.document.HasPaths) c h (fun scope route _ => hasPaths_register h scope route)
    (fun _ _ _ _ _ => h) (fun _ _ hv => h.of_mergeInto hv) (fun _ _ _ hv => h.of_mergeRoute hv)
    (by rwa [h.afterFailedRoute]) h

theorem hasPaths_afterCalls (h : d.document.HasPaths) (calls : List Call) :
    (d.afterCalls calls).document.HasPaths := by
  induction calls generalizing d with
  | nil => exact h
  | cons c calls ih => exact ih (hasPaths_after h c)

/-! ### Documenting a route -/

/-- Documenting a route changes neither tags nor the state. -/
theorem register_frame (scope : Scope) (route : Route) (d : Documentation) :
    (run (register scope route) d).2.tagTable = d.tagTable ∧
      (run (register scope route) d).2.finalized = d.finalized := by
  rcases Bool.eq_false_or_eq_true d.finalized with hd | hd
  · rw [run_register_of_finalized hd]
    exact ⟨rfl, rfl⟩
  · rw [run_register hd]
    split
    · next o b _ =>
      obtain ⟨v, hv⟩ := publish_frame d.registry route o
        { d with registry := b.registry, warnings := b.warnings }
      rw [hv]
      exact ⟨rfl, rfl⟩
    · exact ⟨rfl, rfl⟩

/-- A failing call that enters no type leaves the document as it was. -/
theorem document_after_failed_register (h : d.document.HasPaths) {scope : Scope} {route : Route}
    {ws : List Warning} {r : Option Failure}
    (ht : scope.Traverses d.registry.names (scope.routeErrands route) [] ws r)
    (hf : (run (register scope route) d).1 = .error f) :
    (run (register scope route) d).2.document = d.document := by
  rcases Bool.eq_false_or_eq_true d.finalized with hd | hd
  · rw [run_register_of_finalized hd]
  · obtain ⟨us', ws', r', ht', hout⟩ :=
      (Scope.follows_operation route (d.routeTags route)).total ⟨d.registry, d.warnings⟩
    obtain ⟨rfl, -, -⟩ := ht'.unique ht
    rw [run_register hd] at hf ⊢
    cases r' with
    | some f' =>
      obtain ⟨b, hb, -⟩ := hout
      rw [hb]
    | none =>
      rw [show (scope.operation route (d.routeTags route)).run' _ = _ from hout] at hf ⊢
      dsimp only at hf ⊢
      rw [run_publish, List.map_nil, filter_not_has_append (by simp)] at hf ⊢
      simp only [withComponents, List.isEmpty_nil, if_true] at hf ⊢
      split at hf
      · cases hf
      · simp only [h.afterFailedRoute]

/-! ### Failing calls -/

theorem openRow_eq_self_iff (path : String) (table : TagTable) :
    table.openRow path = table ↔ (table.lookup path).isSome = true := by
  unfold TagTable.openRow
  split
  · next h => simp [h]
  · next h => simp [h]

theorem failure?_eq_some_iff : c.failure? d = some f ↔ (run c.edit d).1 = .error f := by
  unfold Call.failure?
  cases (run c.edit d).1 <;> simp

/-- A failing call to tag a path leaves the row that it opened. -/
theorem after_failed_tag {path : String} {methods tags : Value}
    (hf : (Call.tag path methods tags).failure? d = some f) :
    (Call.tag path methods tags).after d =
      if d.finalized then d else { d with tagTable := d.tagTable.openRow path } := by
  rw [failure?_eq_some_iff] at hf
  rw [Call.after, Call.edit] at *
  rcases Bool.eq_false_or_eq_true d.finalized with hd | hd
  · rw [run_tag_of_finalized hd, if_pos hd]
  · rw [run_tag hd] at hf ⊢
    rw [if_neg (by simp [hd])]
    cases he : tagEntry methods tags with
    | ok entry => simp [he] at hf
    | error f' => rfl

/-- An override that fails is merged as a whole or not at all. -/
theorem after_failed_mergeInto {override : Value} (hf : (Call.mergeInto override).failure? d = some f) :
    (Call.mergeInto override).after d = d := by
  rw [failure?_eq_some_iff, Call.edit, run_mergeInto, run_mergeDocument] at hf
  rw [Call.after_mergeInto]
  split
  · rfl
  · next hd =>
    rw [if_neg hd] at hf
    cases hv : d.document.mergeInto override with
    | ok v => simp [hv] at hf
    | error f' => rfl

/-- All that an override of a path can leave when it fails is a place for paths, and that is there. -/
theorem after_failed_mergeRoute (h : d.document.HasPaths) {path : String} {override : Value}
    (hf : (Call.mergeRoute path override).failure? d = some f) :
    (Call.mergeRoute path override).after d = d := by
  rw [failure?_eq_some_iff, Call.edit, run_mergeRoute, run_mergeDocumentRoute] at hf
  rw [Call.after_mergeRoute]
  split
  · rfl
  · next hd =>
    rw [if_neg hd] at hf
    cases hv : d.document.mergeRoute path override with
    | ok v => simp [hv] at hf
    | error f' => simp only [h.afterFailedRoute]

/-- What a failing call does to the document, the tags and the state. -/
structure Failed (d : Documentation) (c : Call) (names : List String) : Prop where
  document : names = [] → (c.after d).document = d.document
  tagTable : (c.after d).tagTable = d.tagTable ↔ c.opensRow d = false
  finalized : (c.after d).finalized = d.finalized

theorem failed_of_eq {names : List String} (h : c.after d = d) (hrow : c.opensRow d = false) :
    Failed d c names :=
  ⟨fun _ => by rw [h], by simp [h, hrow], by rw [h]⟩

theorem failed (h : d.document.HasPaths) (hc : c ≠ .finalize) (hf : c.failure? d = some f)
    {names : List String} (hn : c.Enters d names) : Failed d c names := by
  cases hr : c.route? with
  | some sr =>
    obtain ⟨scope, route⟩ := sr
    have hframe := register_frame scope route d
    rw [← Call.after_of_route? hr] at hframe
    have hrow : c.opensRow d = false := by cases c <;> first | rfl | cases hr
    refine ⟨fun hnil => ?_, by simp [hframe.1, hrow], hframe.2⟩
    rw [Call.failure?_of_route? hr] at hf
    rw [Call.after_of_route? hr]
    cases hn with
    | @route scope' route' us ws r hr' hd ht =>
      cases hr.symm.trans hr'
      obtain rfl : us = [] := List.map_eq_nil_iff.1 hnil
      exact document_after_failed_register h ht hf
    | idle hidle => rw [run_register_of_finalized (hidle.resolve_left (by simp [hr]))]
  | none =>
    cases c with
    | tag path methods tags =>
      have hafter := after_failed_tag hf
      rcases Bool.eq_false_or_eq_true d.finalized with hd | hd
      · rw [if_pos hd] at hafter
        exact failed_of_eq hafter (by simp [Call.opensRow, hd])
      · rw [if_neg (by simp [hd])] at hafter
        refine ⟨fun _ => by rw [hafter], ?_, by rw [hafter]⟩
        rw [hafter]
        simp [openRow_eq_self_iff, Call.opensRow, hd]
    | tagsFor path method => simp [Call.failure?, Call.edit] at hf
    | register scope route => cases hr
    | registerHandler scope method path handler tags =>
      obtain ⟨f', hf'⟩ := Call.run_registerHandler_of_route?_eq_none (d := d) hr
      exact failed_of_eq (by rw [Call.after, hf']) rfl
    | mergeInto override => exact failed_of_eq (after_failed_mergeInto hf) rfl
    | mergeRoute path override => exact failed_of_eq (after_failed_mergeRoute h hf) rfl
    | finalize => exact absurd rfl hc

/-- The registry is as before exactly when no type was entered. -/
theorem registry_after_eq_iff {names : List String} (hn : c.Enters d names) :
    (c.after d).registry = d.registry ↔ names = [] := by
  obtain ⟨hkept, hnames⟩ := hn.registry_after
  constructor
  · intro h
    simpa [h] using hnames
  · rintro rfl
    refine (hkept.eq_of_length ?_).symm
    simpa [Registry.names] using (congrArg List.length hnames).symm

/-- **When a failing call leaves everything as it was**: in every documentation that calls lead to, a failing
call, other than the one that ends it, leaves the state as it was; it leaves the document, the registry and the
tags as they were exactly when it enters no type and opens no row. -/
theorem failing_call_agrees_iff (s : Settings) (calls : List Call) (c : Call) (hc : c ≠ .finalize)
    (hf : c.failure? ((new s).afterCalls calls) = some f) :
    (c.after ((new s).afterCalls calls)).finalized = ((new s).afterCalls calls).finalized ∧
      (((new s).afterCalls calls).Agrees (c.after ((new s).afterCalls calls)) ↔
        c.Enters ((new s).afterCalls calls) [] ∧ c.opensRow ((new s).afterCalls calls) = false) := by
  generalize hd : (new s).afterCalls calls = d at *
  have hpaths : d.document.HasPaths := hd ▸ hasPaths_afterCalls (hasPaths_new s) calls
  obtain ⟨names, hn⟩ := Call.Enters.total d c
  have hfailed := failed hpaths hc hf hn
  refine ⟨hfailed.finalized, fun h => ?_, fun ⟨hnil, hrow⟩ => ?_⟩
  · obtain rfl := (registry_after_eq_iff hn).1 h.registry
    exact ⟨hn, hfailed.tagTable.1 h.tagTable⟩
  · obtain rfl := hn.unique hnil
    exact ⟨hfailed.document rfl, (registry_after_eq_iff hn).2 rfl, hfailed.tagTable.2 hrow, hfailed.finalized⟩

/-! ### A type that cannot be finished -/

/-- A structured type with a default that is no text. -/
def blobs : Scope :=
  ⟨[⟨"Blob", "Blob", .dataclass, [⟨"data", .builtin .bytes, some (.shared (.bytes [0xff])), none⟩], [], none⟩], 2024, 0⟩

/-- A route that takes the type. -/
def upload : Route :=
  ⟨"/blobs", "POST", [], [], [],
    [⟨"blob", .extractor .json (some (.declared "Blob")), true, false, .null⟩], [], []⟩

/-- A route that gives the type. -/
def download : Route := ⟨"/blobs", "GET", [], [], [], [], [.declared "Blob"], []⟩

/-- The call that takes the type fails, and it has entered the type. -/
theorem failing_call_agrees_iff_upload :
    (Call.register blobs upload).failure? (new default) ≠ none ∧
      ¬ (new default).Agrees ((Call.register blobs upload).after (new default)) := by
  have hfails : (Call.register blobs upload).failure? ((new default).afterCalls []) ≠ none := by decide +kernel
  have hentered : ((Call.register blobs upload).after (new default)).registry.names = ["Blob"] := by decide +kernel
  obtain ⟨f, hf⟩ := Option.ne_none_iff_exists'.1 hfails
  refine ⟨hfails, fun hagrees => ?_⟩
  have hiff := (failing_call_agrees_iff default [] (.register blobs upload) (by simp) hf).2
  have hnothing := (hiff.1 hagrees).1.registry_after.2
  rw [afterCalls_nil, hentered] at hnothing
  simp [new] at hnothing

/-- **A type that cannot be finished stays registered.**  The call that takes it fails, a later one describes it
by a reference, and no component of its name is ever there. -/
theorem failing_call_leaves_type :
    (Call.register blobs upload).failure? (new default) ≠ none ∧
      (new default).registry.names = [] ∧
      ((Call.register blobs upload).after (new default)).registry.names = ["Blob"] ∧
      (Call.register blobs download).failure? ((Call.register blobs upload).after (new default)) = none ∧
      (blobs.fragment (.declared "Blob")).map Schema.components = some ["Blob"] ∧
      (((new default).afterCalls [.register blobs upload, .register blobs download]).componentSchemas.bind
        Value.entries?).map Entries.keys = some [] := by
  decide +kernel

end Documentation

end RouteDoc
