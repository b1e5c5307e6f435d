import RouteDoc.Proofs.Flattening

/-!
# Notices

What is left out of a document is said in a notice.  Notices are given at every level of a traversal: below the
description of a type, after a field that has no description, after a parameter that has none.  A traversal gives the
notices of its errands and those of the fields of every type that it enters, each once.  So the notices about fields
are, in some order, the fields that the components of the types entered lack; and the notices about parameters are,
in order, the candidates that have no entry.

* `Warning.field?`, `Warning.param?` — what a notice is about;
* `Scope.Traverses.notices_perm`, `Scope.Traverses.notices_in_order` — the notices of a traversal;
* `Scope.lacking` — the fields of a type that its component lacks;
* `Scope.Accounts` — notices and components that make up for all fields;
* `Scope.dropped_with_notice` — registering a type, and describing parameters.
-/

namespace RouteDoc

namespace Warning

/-- The field that has no description, after the name of its type. -/
def field? : Warning → Option (String × String)
  | undescribedField type field => some (type, field)
  | _ => none

/-- The parameter that has no description, after the name of its place. -/
def param? : Warning → Option (String × String)
  | undescribedParam location name => some (location, name)
  | _ => none

end Warning

/-- The notice that an errand asks for. -/
def Errand.notice? : Errand → Option Warning
  | notice w => some w
  | _ => none

/-- The notices among errands, in order. -/
def noticesOf (es : List Errand) : List Warning := es.filterMap Errand.notice?

@[simp] theorem noticesOf_append (es es' : List Errand) : noticesOf (es ++ es') = noticesOf es ++ noticesOf es' :=
  List.filterMap_append

theorem noticesOf_flatMap {α : Type} (l : List α) (errands : α → List Errand) :
    noticesOf (l.flatMap errands) = l.flatMap fun a => noticesOf (errands a) := by
  induction l with
  | nil => rfl
  | cons a l ih => rw [List.flatMap_cons, List.flatMap_cons, noticesOf_append, ih]

@[simp] theorem noticesOf_map_notice (ws : List Warning) : noticesOf (ws.map .notice) = ws := by
  simp [noticesOf, Errand.notice?, List.filterMap_map, Function.comp_def]

namespace Scope

variable {scope : Scope}

/-! ### The notices of a traversal -/

namespace Traverses

variable {seen : List String} {es : List Errand} {us : List TypeExpr} {ws : List Warning} {r : Option Failure}

/-- **The notices of a traversal**, in some order: those that its errands ask for, and those of the fields of every
type that it enters. -/
theorem notices_perm (h : scope.Traverses seen es us ws none) :
    ws.Perm (noticesOf es ++ us.flatMap fun u => noticesOf (scope.structErrands u)) := by
  generalize hr : (none : Option Failure) = r at h
  induction h with
  | done => exact .nil
  | stop => cases hr
  | notice _ ih => exact .cons _ (ih hr)
  | known _ _ ih => exact ih hr
  | @enter seen t es us vs ws xs r _ _ _ ih₁ ih₂ =>
    have hboth := (ih₁ rfl).append (ih₂ hr)
    refine hboth.trans ?_
    rw [List.flatMap_append, List.flatMap_cons]
    show List.Perm _ (noticesOf es ++ _)
    exact List.perm_append_comm_assoc _ _ _
  | abort => cases hr

/-- What the fields of types give no notice of, is told by the errands alone, in their order. -/
theorem notices_in_order {α : Type} {f : Warning → Option α}
    (hf : ∀ t, (noticesOf (scope.structErrands t)).filterMap f = []) (h : scope.Traverses seen es us ws none) :
    ws.filterMap f = (noticesOf es).filterMap f := by
  generalize hr : (none : Option Failure) = r at h
  induction h with
  | done => rfl
  | stop => cases hr
  | @notice _ w es _ _ _ _ ih =>
    show List.filterMap f (w :: _) = List.filterMap f (w :: noticesOf es)
    rw [List.filterMap_cons, List.filterMap_cons, ih hr]
  | known _ _ ih => exact ih hr
  | @enter seen t es us vs ws xs r _ _ _ ih₁ ih₂ =>
    rw [List.filterMap_append, ih₁ rfl, hf, List.nil_append, ih₂ hr]
    rfl
  | abort => cases hr

end Traverses

/-! ### The notices of descriptions -/

/-- The description of a type gives notice of unions and of items alone. -/
theorem of_mem_warnings {t : TypeExpr} {d : Description} (h : scope.describe t = .ok d) {w : Warning}
    (hw : w ∈ d.warnings) : (∃ u, w = .ambiguousUnion u) ∨ ∃ u, w = .undescribedItems u := by
  replace h := describedAs_of_describe h
  induction h with
  | nothing => cases hw
  | @choice t => exact .inl ⟨t, List.mem_singleton.1 hw⟩
  | struct => cases hw
  | @items t payload item nullable items _ _ _ _ ih =>
    unfold describeArray at hw
    split at hw
    · exact ih hw
    · rcases List.mem_append.1 hw with hw | hw
      · exact ih hw
      · exact .inr ⟨payload, List.mem_singleton.1 hw⟩
  | anyItems => cases hw
  | simple => cases hw

/-- What is told of names alone is not told by the descriptions of types. -/
def OfNames {α : Type} (f : Warning → Option α) : Prop :=
  ∀ t, f (.ambiguousUnion t) = none ∧ f (.undescribedItems t) = none

variable {α : Type} {f : Warning → Option α}

theorem notices_typeErrands (hf : OfNames f) (t : TypeExpr) :
    (noticesOf (scope.typeErrands t)).filterMap f = [] := by
  unfold typeErrands
  cases hd : scope.describe t with
  | error e => rfl
  | ok d =>
    have htarget : noticesOf (d.target.map Errand.visit).toList = [] := by cases d.target <;> rfl
    rw [noticesOf_append, htarget, noticesOf_map_notice, List.nil_append, List.filterMap_eq_nil_iff]
    intro w hw
    rcases of_mem_warnings hd hw with ⟨u, rfl⟩ | ⟨u, rfl⟩
    · exact (hf u).1
    · exact (hf u).2

/-- A typed name gives its own notice exactly when its type has no description. -/
theorem notices_typedErrands (hf : OfNames f) (t : TypeExpr) (p : Param) (otherwise : Warning) :
    (noticesOf (scope.typedErrands t p otherwise)).filterMap f =
      if (scope.fragment t).isNone then (f otherwise).toList else [] := by
  rw [typedErrands, noticesOf_append, List.filterMap_append, notices_typeErrands hf, List.nil_append]
  cases scope.fragment t with
  | none => cases ho : f otherwise <;> simp [noticesOf, Errand.notice?, ho]
  | some s =>
    show (noticesOf (defaultErrands p)).filterMap f = []
    unfold defaultErrands
    cases documentedDefault p <;> rfl

theorem ofNames_field? : OfNames Warning.field? := fun _ => ⟨rfl, rfl⟩

theorem ofNames_param? : OfNames Warning.param? := fun _ => ⟨rfl, rfl⟩

/-! ### The notices of types and of parameters -/

/-- The notices about typed names of a list are about those without a description, in their order. -/
theorem notices_flatMap (hf : OfNames f) {ps : List Param} {type : Param → TypeExpr} {otherwise : Param → Warning} :
    (noticesOf (ps.flatMap fun p => scope.typedErrands (type p) p (otherwise p))).filterMap f =
      (ps.filter fun p => (scope.fragment (type p)).isNone).filterMap fun p => f (otherwise p) := by
  rw [noticesOf_flatMap]
  induction ps with
  | nil => rfl
  | cons p ps ih =>
    rw [List.flatMap_cons, List.filterMap_append, notices_typedErrands hf, ih, List.filter_cons]
    cases scope.fragment (type p) with
    | some s => rfl
    | none => cases ho : f (otherwise p) <;> simp [ho]

/-- The fields of a type that have no description, each after the name of the type. -/
def undescribed (scope : Scope) (t : TypeExpr) : List (String × String) :=
  ((scope.fieldList t).filter fun p => (scope.fragment p.type).isNone).map fun p => (scope.types.typeName t, p.name)

theorem fields_structErrands (t : TypeExpr) :
    (noticesOf (scope.structErrands t)).filterMap Warning.field? = scope.undescribed t := by
  unfold structErrands undescribed fieldList
  cases scope.fieldsOf t with
  | error e => rfl
  | ok fields =>
    show (noticesOf (fields.flatMap fun p => scope.typedErrands p.type p _)).filterMap _ = _
    rw [notices_flatMap ofNames_field?]
    exact congrFun (List.filterMap_eq_map (f := fun q : Param => (scope.types.typeName t, q.name))) _

theorem params_structErrands (t : TypeExpr) :
    (noticesOf (scope.structErrands t)).filterMap Warning.param? = [] := by
  unfold structErrands
  cases scope.fieldsOf t with
  | error e => rfl
  | ok fields =>
    show (noticesOf (fields.flatMap fun p => scope.typedErrands p.type p _)).filterMap _ = _
    rw [notices_flatMap ofNames_param?, List.filterMap_eq_nil_iff]
    exact fun _ _ => rfl

theorem fields_paramErrands (location : Location) (turn : Nat) (p : Param) :
    (noticesOf (scope.paramErrands location turn p)).filterMap Warning.field? = [] := by
  unfold paramErrands
  cases scope.candidates turn p with
  | error e => rfl
  | ok candidates =>
    show (noticesOf (candidates.flatMap fun q => scope.typedErrands _ q _)).filterMap _ = _
    rw [notices_flatMap ofNames_field?, List.filterMap_eq_nil_iff]
    exact fun _ _ => rfl

theorem params_paramErrands (location : Location) (turn : Nat) (p : Param) :
    (noticesOf (scope.paramErrands location turn p)).filterMap Warning.param? =
      ((scope.candidateList turn p).filter fun q => (scope.entryFor location q).isNone).map
        fun q => (location.name, q.name) := by
  unfold paramErrands candidateList
  cases scope.candidates turn p with
  | error e => rfl
  | ok candidates =>
    show (noticesOf (candidates.flatMap fun q => scope.typedErrands _ q _)).filterMap _ = _
    rw [notices_flatMap ofNames_param?]
    simp only [entryFor, Option.isNone_map]
    exact congrFun (List.filterMap_eq_map (f := fun q : Param => (location.name, q.name))) _

/-! ### Components that lack fields -/

/-- The fields of a type that are no properties of the component under its name, each after the name of the type. -/
def lacking (scope : Scope) (r : Registry) (t : TypeExpr) : List (String × String) :=
  ((scope.fieldList t).filter fun p =>
    ((r.get? (scope.types.typeName t)).bind fun e => e.toValue.property? p.name).isNone).map
    fun p => (scope.types.typeName t, p.name)

theorem property?_eq_none_iff (c : Component) (m : String) :
    c.toValue.property? m = none ↔ m ∉ c.properties.map (·.1) := by
  rw [property?_component, List.lookup_eq_none_iff, ← names_writtenProperties]
  constructor
  · rintro h hin
    obtain ⟨e, he, rfl⟩ := List.mem_map.1 hin
    simpa using h e he
  · intro h e he
    have hne : m ≠ e.1 := fun heq => h (heq ▸ List.mem_map_of_mem he)
    simpa using hne

/-- A field is no property of the component of its type exactly when it has no description. -/
theorem isNone_property?_componentOf {t : TypeExpr} {p : Param} (hp : p ∈ scope.fieldList t) :
    ((scope.componentOf t).toValue.property? p.name).isNone = (scope.fragment p.type).isNone := by
  have hnames : p.name ∈ (scope.componentOf t).properties.map (·.1) ↔ (scope.fragment p.type).isSome = true := by
    show p.name ∈ ((scope.fieldList t).filterMap scope.propertyOf).map (·.1) ↔ _
    rw [names_propertyOf, List.mem_map]
    constructor
    · rintro ⟨q, hq, hname⟩
      obtain ⟨hq, hsome⟩ := List.mem_filter.1 hq
      -- no other field bears the name
      obtain rfl := List.inj_on_of_nodup_map (fieldList_names_nodup t) hq hp hname
      exact hsome
    · exact fun hsome => ⟨p, List.mem_filter.2 ⟨hp, hsome⟩, rfl⟩
  rw [Bool.eq_iff_iff, Option.isNone_iff_eq_none, property?_eq_none_iff, hnames]
  simp

/-- A type that was entered stands in the registry with its component. -/
theorem Traverses.get?_finished {r : Registry} {es : List Errand} {us : List TypeExpr} {ws : List Warning}
    (h : scope.Traverses r.names es us ws none) {u : TypeExpr} (hu : u ∈ us) :
    Registry.get? (r ++ us.map scope.finished) (scope.types.typeName u) = some (.built (scope.componentOf u)) := by
  have hold : List.lookup (scope.types.typeName u) r = none := by
    have hhas := (Registry.has_eq_false_iff r _).2 (h.fresh u hu)
    simpa [Registry.has, Registry.get?] using hhas
  have hnodup := h.names_nodup
  rw [Registry.get?, List.lookup_append, hold, Option.none_or]
  clear h hold
  induction us with
  | nil => cases hu
  | cons v us ih =>
    rw [namesOf_cons, List.nodup_cons] at hnodup
    rw [List.map_cons, finished, List.lookup_cons]
    rcases List.mem_cons.1 hu with rfl | hu
    · rw [beq_self_eq_true]
    · have hne : scope.types.typeName u ≠ scope.types.typeName v := fun heq =>
        hnodup.1 (mem_namesOf.2 ⟨u, hu, heq⟩)
      rw [beq_false_of_ne hne]
      exact ih hu hnodup.2

/-- What a type that was entered lacks is what has no description. -/
theorem Traverses.lacking_eq {r : Registry} {es : List Errand} {us : List TypeExpr} {ws : List Warning}
    (h : scope.Traverses r.names es us ws none) {u : TypeExpr} (hu : u ∈ us) :
    scope.lacking (r ++ us.map scope.finished) u = scope.undescribed u := by
  rw [lacking, undescribed, h.get?_finished hu]
  congr 1
  exact List.filter_congr fun p hp => isNone_property?_componentOf hp

/-- No field is counted twice: the names of the types differ, and so do those of the fields of each. -/
theorem nodup_undescribed {us : List TypeExpr} (h : (scope.namesOf us).Nodup) :
    (us.flatMap scope.undescribed).Nodup := by
  refine List.nodup_flatMap.2 ⟨fun u _ => ?_, ?_⟩
  · have hfields : ((scope.undescribed u).map (·.2)).Nodup := by
      rw [undescribed, List.map_map]
      exact (fieldList_names_nodup u).sublist (List.filter_sublist.map _)
    exact hfields.of_map _
  · refine (List.pairwise_map.1 h).imp fun hne => ?_
    rintro ⟨type, field⟩ hu hv
    obtain ⟨p, -, hp⟩ := List.mem_map.1 hu
    obtain ⟨q, -, hq⟩ := List.mem_map.1 hv
    exact hne ((Prod.mk.inj hp).1.trans (Prod.mk.inj hq).1.symm)

/-! ### The account of a call -/

/-- The notices of a call account for the fields of the types that it converts: the types follow in the registry,
each under a new name and with its component, and the notices about fields are, in some order, the fields that
these components lack, each once. -/
structure Accounts (scope : Scope) (before after : Builder) (us : List TypeExpr) (ws : List Warning) : Prop where
  registry_eq : after.registry = before.registry ++ us.map scope.finished
  warnings_eq : after.warnings = before.warnings ++ ws
  names_nodup : (scope.namesOf us).Nodup
  names_new : ∀ u ∈ us, scope.types.typeName u ∉ before.registry.names
  fields_read : ∀ u ∈ us, scope.fieldsOf u = .ok (scope.fieldList u)
  lacking_perm : (ws.filterMap Warning.field?).Perm (us.flatMap (scope.lacking after.registry))
  lacking_nodup : (us.flatMap (scope.lacking after.registry)).Nodup

theorem accounts_of_traverses {b : Builder} {es : List Errand} {us : List TypeExpr} {ws : List Warning}
    (hfields : (noticesOf es).filterMap Warning.field? = []) (h : scope.Traverses b.registry.names es us ws none) :
    scope.Accounts b ⟨b.registry ++ us.map scope.finished, b.warnings ++ ws⟩ us ws := by
  have hlacking : us.flatMap (scope.lacking (b.registry ++ us.map scope.finished)) = us.flatMap scope.undescribed :=
    List.flatMap_congr fun u hu => h.lacking_eq hu
  refine ⟨rfl, rfl, h.names_nodup, h.fresh, fun u hu => ?_, ?_, ?_⟩
  · have hclean : ∀ f, .stop f ∉ scope.structErrands u := fun f => (h.stop_notMem f).2 u hu
    obtain ⟨fields, hread, -⟩ := stop_notMem_structErrands_iff.1 hclean
    rw [fieldList, hread]
  · rw [hlacking]
    have hperm := h.notices_perm.filterMap Warning.field?
    rw [List.filterMap_append, hfields, List.nil_append, List.filterMap_flatMap] at hperm
    simpa only [fields_structErrands] using hperm
  · rw [hlacking]
    exact nodup_undescribed h.names_nodup

/-- The parameters that parameters in turn stand for, each with the place that it is read from. -/
def placed (scope : Scope) (ps : List (Location × Param × Nat)) : List (Location × Param) :=
  ps.flatMap fun (location, p, turn) => (scope.candidateList turn p).map (location, ·)

theorem filterMap_placed (ps : List (Location × Param × Nat)) :
    (scope.placed ps).filterMap (fun c => scope.entryFor c.1 c.2) = scope.turnEntries ps := by
  rw [placed, turnEntries, List.filterMap_flatMap]
  refine List.flatMap_congr fun q _ => ?_
  rw [List.filterMap_map]
  rfl

/-- The notices about parameters are about those of their candidates that have no entry. -/
theorem params_turnErrands (ps : List (Location × Param × Nat)) :
    (noticesOf (scope.turnErrands ps)).filterMap Warning.param? =
      ((scope.placed ps).filter fun c => (scope.entryFor c.1 c.2).isNone).map fun c => (c.1.name, c.2.name) := by
  rw [turnErrands, noticesOf_flatMap, List.filterMap_flatMap, placed, List.filter_flatMap, List.map_flatMap]
  refine List.flatMap_congr fun q _ => ?_
  rw [params_paramErrands, List.filter_map, List.map_map]
  rfl

theorem fields_turnErrands (ps : List (Location × Param × Nat)) :
    (noticesOf (scope.turnErrands ps)).filterMap Warning.field? = [] := by
  rw [turnErrands, noticesOf_flatMap, List.filterMap_flatMap]
  exact List.flatMap_eq_nil_iff.2 fun q _ => fields_paramErrands q.1 q.2.2 q.2.1

/-- Candidates are read where no errand stops. -/
theorem candidates_eq_ok {ps : List (Location × Param × Nat)} (h : ∀ f, .stop f ∉ scope.turnErrands ps)
    {location : Location} {p : Param} {turn : Nat} (hp : (location, p, turn) ∈ ps) :
    scope.candidates turn p = .ok (scope.candidateList turn p) := by
  unfold candidateList
  cases hc : scope.candidates turn p with
  | ok candidates => rfl
  | error f =>
    refine absurd (List.mem_flatMap.2 ⟨_, hp, ?_⟩) (h f)
    show .stop f ∈ scope.paramErrands location turn p
    rw [paramErrands, hc]
    exact List.mem_singleton_self _

/-- **Nothing is dropped silently.**  From every registry, whenever nothing fails: registering a type gives notice of
every field that the component of a type it converts lacks, once each, and of no other field and no parameter.
Describing parameters does the same for the types that it converts; besides, each of their candidates, a parameter or
a field of one that is gathered, has one entry or none, the entries follow in the order of the candidates, and
so do the notices about parameters, which are about those without an entry.  The types converted are those that
the traversal enters. -/
theorem dropped_with_notice (scope : Scope) :
    (∀ (t : TypeExpr) (b after : Builder), (scope.convert t).run' b = (.ok (), after) →
      ∃ us ws, scope.Traverses b.registry.names [.visit t] us ws none ∧ scope.Accounts b after us ws ∧
        ws.filterMap Warning.param? = []) ∧
    (∀ (path query header : List Param) (b after : Builder) (entries : List RequestParameter),
      (scope.allEntries path query header).run' b = (.ok entries, after) →
      let candidates := scope.placed (inTurn path query header)
      ∃ us ws, scope.Traverses b.registry.names (scope.turnErrands (inTurn path query header)) us ws none ∧
        scope.Accounts b after us ws ∧
        (∀ location p turn, (location, p, turn) ∈ inTurn path query header →
          scope.candidates turn p = .ok (scope.candidateList turn p)) ∧
        entries = candidates.filterMap (fun c => scope.entryFor c.1 c.2) ∧
        ws.filterMap Warning.param? =
          (candidates.filter fun c => (scope.entryFor c.1 c.2).isNone).map fun c => (c.1.name, c.2.name)) ∧
    ∀ (location : Location) (p : Param) (b after : Builder) (e : Option RequestParameter),
      (scope.entry location p).run' b = (.ok e, after) → e = scope.entryFor location p := by
  refine ⟨fun t b after h => ?_, fun path query header b after entries h => ?_, fun location p b after e h => ?_⟩
  · obtain ⟨-, us, ws, htrav, rfl⟩ := (follows_convert t).of_ok h
    exact ⟨us, ws, htrav, accounts_of_traverses rfl htrav, htrav.notices_in_order params_structErrands⟩
  · intro candidates
    obtain ⟨rfl, us, ws, htrav, rfl⟩ := (follows_allEntries path query header).of_ok h
    have hclean := fun f => (htrav.stop_notMem f).1
    refine ⟨us, ws, htrav, accounts_of_traverses (fields_turnErrands _) htrav,
      fun location p turn hp => candidates_eq_ok hclean hp, (filterMap_placed _).symm, ?_⟩
    rw [htrav.notices_in_order params_structErrands, params_turnErrands]
  · exact ((follows_entry location p).of_ok h).1

/-- The code of a booking has no description.  Where bookings are registered, one notice says so of the field; where
they are gathered from the query, another one says so of the parameter. -/
theorem dropped_with_notice_bookings :
    ∃ (done after : Builder) (entries : List RequestParameter) (us : List TypeExpr),
      (bookings.convert (.declared "Booking")).run' ⟨[], []⟩ = (.ok (), done) ∧
      (done.warnings.filterMap Warning.field?).Perm (us.flatMap (bookings.lacking done.registry)) ∧
      done.warnings.filterMap Warning.field? = [("Booking", "code")] ∧
      (bookings.allEntries [] [bookingFilter] []).run' ⟨[], []⟩ = (.ok entries, after) ∧
      entries.map (·.name) = ["room", "start", "finish", "next", "guests", "seats"] ∧
      after.warnings.filterMap Warning.param? = [("query", "code")] := by
  have hok : ((bookings.convert (.declared "Booking")).run' ⟨[], []⟩).1.toBool = true := by decide +kernel
  have hok' : ((bookings.allEntries [] [bookingFilter] []).run' ⟨[], []⟩).1.toBool = true := by decide +kernel
  have hnotices : ((bookings.convert (.declared "Booking")).run' ⟨[], []⟩).2.warnings.filterMap Warning.field? =
      [("Booking", "code")] := by decide +kernel
  obtain ⟨_, done, hdone⟩ := Build.exists_run'_eq_ok hok
  obtain ⟨entries, after, hafter⟩ := Build.exists_run'_eq_ok hok'
  rw [hdone] at hnotices
  obtain ⟨hconvert, hparams, -⟩ := dropped_with_notice bookings
  obtain ⟨us, ws, -, hus, -⟩ := hconvert _ _ _ hdone
  obtain ⟨us', ws', -, hus', -, hentries, hdropped⟩ := hparams _ _ _ _ _ _ hafter
  refine ⟨done, after, entries, us, hdone, ?_, hnotices, hafter, ?_, ?_⟩
  · rw [hus.warnings_eq, List.nil_append]
    exact hus.lacking_perm
  · rw [hentries]
    decide +kernel
  · rw [hus'.warnings_eq, List.nil_append, hdropped]
    decide +kernel

end Scope

end RouteDoc
