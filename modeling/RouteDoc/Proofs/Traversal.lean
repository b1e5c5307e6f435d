import Mathlib.Data.List.Nodup
import RouteDoc.Operation

/-!
# Traversals of structured types

Describing a type asks for errands: to visit the structured type that it refers to, to give notices, or to
stop with a failure.  The errands of a type, of its fields, of a parameter and of a route are lists that
depend on the declarations alone; what is registered decides only which visits are made.

A **traversal** runs through errands in order, given the names seen so far.  A visit to a name that was seen
is passed over; any other visit enters the type, runs through the errands of its fields, and goes on with all
names seen on the way.  This is depth-first search in pre-order, with types counted as seen by name and from
the moment they are entered.

* `Scope.Traverses` — the relation between errands, the types entered, the notices given and the failure;
* `Traverses.unique` — a traversal is determined by the seen names and the errands;
* `Traverses.fresh`, `Traverses.names_nodup` — only unseen names are entered, and each once;
* `Traverses.closed` — after a traversal without failure every type referred to was seen or entered;
* `Traverses.mem_iff_reachable` — the types entered are those that paths through unregistered names reach.
-/

namespace RouteDoc

/-- What describing something asks for. -/
inductive Errand where
  /-- The structured type has to be registered. -/
  | visit (t : TypeExpr)
  | notice (w : Warning)
  /-- Nothing goes on after the failure. -/
  | stop (f : Failure)
  deriving Repr, Inhabited

namespace Scope

variable {scope : Scope}

/-! ### Errands -/

/-- The errands of describing a type. -/
def typeErrands (scope : Scope) (t : TypeExpr) : List Errand :=
  match scope.describe t with
  | .ok d => (d.target.map Errand.visit).toList ++ d.warnings.map Errand.notice
  | .error f => [.stop f]

/-- The description of a type by itself. -/
def fragment (scope : Scope) (t : TypeExpr) : Option Schema :=
  match scope.describe t with
  | .ok d => d.schema
  | .error _ => none

/-- The errands of documenting a default. -/
def defaultErrands (p : Param) : List Errand :=
  match documentedDefault p with
  | .ok _ => []
  | .error f => [.stop f]

/-- The errands of documenting a typed name: those of its type, and then those of its default, or a notice
when the type has no description. -/
def typedErrands (scope : Scope) (t : TypeExpr) (p : Param) (otherwise : Warning) : List Errand :=
  scope.typeErrands t ++
    match scope.fragment t with
    | some _ => defaultErrands p
    | none => [.notice otherwise]

/-- The errands of one field of a structured type. -/
def fieldErrands (scope : Scope) (owner : String) (p : Param) : List Errand :=
  scope.typedErrands p.type p (.undescribedField owner p.name)

/-- The errands of a structured type: those of its fields, in order. -/
def structErrands (scope : Scope) (t : TypeExpr) : List Errand :=
  match scope.fieldsOf t with
  | .ok fields => fields.flatMap (scope.fieldErrands (scope.types.typeName t))
  | .error f => [.stop f]

/-- The errands of one entry for a request parameter. -/
def entryErrands (scope : Scope) (location : Location) (p : Param) : List Errand :=
  scope.typedErrands (scope.types.extractType p.type) p (.undescribedParam location.name p.name)

/-- The errands of a request parameter at its turn, which may be gathered from several. -/
def paramErrands (scope : Scope) (location : Location) (turn : Nat) (p : Param) : List Errand :=
  match scope.candidates turn p with
  | .ok candidates => candidates.flatMap (scope.entryErrands location)
  | .error f => [.stop f]

/-- Path, query and header parameters in turn. -/
def inTurn (path query header : List Param) : List (Location × Param × Nat) :=
  path.zipIdx.map (Prod.mk .path) ++
    ((query.zipIdx path.length).map (Prod.mk .query) ++
      (header.zipIdx (path.length + query.length)).map (Prod.mk .header))

/-- The errands of request parameters in turn. -/
def turnErrands (scope : Scope) (ps : List (Location × Param × Nat)) : List Errand :=
  ps.flatMap fun (location, p, turn) => scope.paramErrands location turn p

/-- The errands of a body parameter. -/
def bodyErrands (scope : Scope) (p : Param) : List Errand :=
  if scope.types.isStruct (Content.payload scope.types p) then [.visit (Content.payload scope.types p).unwrap]
  else []

/-- The errands of making the content map of a body. -/
def contentErrands (scope : Scope) (ps : List Param) : List Errand :=
  match Content.content scope.types ps with
  | .ok _ => []
  | .error f => [.stop f]

/-- The errands of a route: bodies, parameters from path, query and header, the content of the body, and results. -/
def routeErrands (scope : Scope) (route : Route) : List Errand :=
  route.bodyParams.flatMap scope.bodyErrands
    ++ scope.turnErrands (inTurn route.pathParams route.queryParams route.headerParams)
    ++ (scope.contentErrands route.bodyParams
      ++ (Responses.concreteTypes route.returnTypes).flatMap scope.typeErrands)

/-! ### Traversals -/

/-- The names of several types. -/
def namesOf (scope : Scope) (ts : List TypeExpr) : List String := ts.map scope.types.typeName

@[simp] theorem namesOf_nil : scope.namesOf [] = [] := rfl

@[simp] theorem namesOf_cons (t : TypeExpr) (ts : List TypeExpr) :
    scope.namesOf (t :: ts) = scope.types.typeName t :: scope.namesOf ts := rfl

@[simp] theorem namesOf_append (ts us : List TypeExpr) :
    scope.namesOf (ts ++ us) = scope.namesOf ts ++ scope.namesOf us := List.map_append

theorem mem_namesOf {name : String} {ts : List TypeExpr} :
    name ∈ scope.namesOf ts ↔ ∃ t ∈ ts, scope.types.typeName t = name := List.mem_map

/-- Running through errands, from the names seen so far: the types entered in order, the notices given, and
the failure if one occurs. -/
inductive Traverses (scope : Scope) :
    List String → List Errand → List TypeExpr → List Warning → Option Failure → Prop
  | done {seen : List String} : Traverses scope seen [] [] [] none
  | stop {seen : List String} {f : Failure} {es : List Errand} :
      Traverses scope seen (.stop f :: es) [] [] (some f)
  | notice {seen : List String} {w : Warning} {es : List Errand} {us : List TypeExpr} {ws : List Warning}
      {r : Option Failure} :
      Traverses scope seen es us ws r → Traverses scope seen (.notice w :: es) us (w :: ws) r
  /-- The name of the type was seen. -/
  | known {seen : List String} {t : TypeExpr} {es : List Errand} {us : List TypeExpr} {ws : List Warning}
      {r : Option Failure} :
      scope.types.typeName t ∈ seen → Traverses scope seen es us ws r →
      Traverses scope seen (.visit t :: es) us ws r
  /-- The type is entered, and its fields are run through. -/
  | enter {seen : List String} {t : TypeExpr} {es : List Errand} {us vs : List TypeExpr}
      {ws xs : List Warning} {r : Option Failure} :
      scope.types.typeName t ∉ seen →
      Traverses scope (seen ++ [scope.types.typeName t]) (scope.structErrands t) us ws none →
      Traverses scope (seen ++ scope.namesOf (t :: us)) es vs xs r →
      Traverses scope seen (.visit t :: es) (t :: us ++ vs) (ws ++ xs) r
  /-- The type is entered, and one of its fields fails. -/
  | abort {seen : List String} {t : TypeExpr} {es : List Errand} {us : List TypeExpr} {ws : List Warning}
      {f : Failure} :
      scope.types.typeName t ∉ seen →
      Traverses scope (seen ++ [scope.types.typeName t]) (scope.structErrands t) us ws (some f) →
      Traverses scope seen (.visit t :: es) (t :: us) ws (some f)

namespace Traverses

variable {seen : List String} {es es' : List Errand} {us us' : List TypeExpr} {ws ws' : List Warning}
  {r r' : Option Failure}

/-- **Traversals are deterministic.** -/
theorem unique (h : scope.Traverses seen es us ws r) (h' : scope.Traverses seen es us' ws' r') :
    us = us' ∧ ws = ws' ∧ r = r' := by
  induction h generalizing us' ws' r' with
  | done =>
    cases h'
    exact ⟨rfl, rfl, rfl⟩
  | stop =>
    cases h'
    exact ⟨rfl, rfl, rfl⟩
  | notice _ ih =>
    cases h' with
    | notice h' =>
      obtain ⟨rfl, rfl, rfl⟩ := ih h'
      exact ⟨rfl, rfl, rfl⟩
  | known hin _ ih =>
    cases h' with
    | known _ h' => exact ih h'
    | enter hout => exact absurd hin hout
    | abort hout => exact absurd hin hout
  | enter hout _ _ ih₁ ih₂ =>
    cases h' with
    | known hin => exact absurd hin hout
    | enter _ h₁ h₂ =>
      obtain ⟨rfl, rfl, -⟩ := ih₁ h₁
      obtain ⟨rfl, rfl, rfl⟩ := ih₂ h₂
      exact ⟨rfl, rfl, rfl⟩
    | abort _ h₁ => exact absurd (ih₁ h₁).2.2 (by simp)
  | abort hout _ ih =>
    cases h' with
    | known hin => exact absurd hin hout
    | enter _ h₁ => exact absurd (ih h₁).2.2 (by simp)
    | abort _ h₁ =>
      obtain ⟨rfl, rfl, h⟩ := ih h₁
      exact ⟨rfl, rfl, h⟩

/-! ### One traversal after another -/

theorem append (h : scope.Traverses seen es us ws none)
    (h' : scope.Traverses (seen ++ scope.namesOf us) es' us' ws' r) :
    scope.Traverses seen (es ++ es') (us ++ us') (ws ++ ws') r := by
  generalize hr : (none : Option Failure) = r₀ at h
  induction h with
  | done => simpa using h'
  | stop => cases hr
  | notice _ ih => exact .notice (ih h' hr)
  | known hin _ ih => exact .known hin (ih h' hr)
  | enter hout h₁ _ _ ih =>
    subst hr
    rw [List.append_assoc, List.append_assoc]
    refine .enter hout h₁ (ih ?_ rfl)
    simpa [List.append_assoc] using h'
  | abort => cases hr

theorem append_stop {f : Failure} (h : scope.Traverses seen es us ws (some f)) (es' : List Errand) :
    scope.Traverses seen (es ++ es') us ws (some f) := by
  generalize hr : some f = r₀ at h
  induction h with
  | done => cases hr
  | stop => exact .stop
  | notice _ ih => exact .notice (ih hr)
  | known hin _ ih => exact .known hin (ih hr)
  | enter hout h₁ _ _ ih => exact .enter hout h₁ (ih hr)
  | abort hout h₁ => exact .abort hout h₁

/-- A traversal of two lists of errands without failure runs through one and then through the other. -/
theorem split (h : scope.Traverses seen (es ++ es') us ws none) :
    ∃ us₁ us₂ ws₁ ws₂, us = us₁ ++ us₂ ∧ ws = ws₁ ++ ws₂ ∧ scope.Traverses seen es us₁ ws₁ none ∧
      scope.Traverses (seen ++ scope.namesOf us₁) es' us₂ ws₂ none := by
  induction es generalizing seen us ws with
  | nil => exact ⟨[], us, [], ws, rfl, rfl, .done, by simpa using h⟩
  | cons e es ih =>
    cases h with
    | @notice _ w _ _ ws _ h =>
      obtain ⟨us₁, us₂, ws₁, ws₂, rfl, rfl, h₁, h₂⟩ := ih h
      exact ⟨us₁, us₂, w :: ws₁, ws₂, rfl, rfl, .notice h₁, h₂⟩
    | known hin h =>
      obtain ⟨us₁, us₂, ws₁, ws₂, rfl, rfl, h₁, h₂⟩ := ih h
      exact ⟨us₁, us₂, ws₁, ws₂, rfl, rfl, .known hin h₁, h₂⟩
    | @enter _ t _ us _ ws _ _ hout hin h =>
      obtain ⟨us₁, us₂, ws₁, ws₂, rfl, rfl, h₁, h₂⟩ := ih h
      refine ⟨t :: us ++ us₁, us₂, ws ++ ws₁, ws₂, by simp, by simp, .enter hout hin h₁, ?_⟩
      simpa [List.append_assoc] using h₂

/-- Notices alone. -/
theorem notices (seen : List String) (ws : List Warning) :
    scope.Traverses seen (ws.map Errand.notice) [] ws none := by
  induction ws with
  | nil => exact .done
  | cons w ws ih => exact .notice ih

/-! ### Names -/

/-- Only types whose names were not seen are entered. -/
theorem fresh (h : scope.Traverses seen es us ws r) : ∀ u ∈ us, scope.types.typeName u ∉ seen := by
  induction h with
  | done => simp
  | stop => simp
  | notice _ ih => exact ih
  | known _ _ ih => exact ih
  | enter hout _ _ ih₁ ih₂ =>
    intro u hu hs
    rcases List.mem_append.1 hu with hu | hu
    · rcases List.mem_cons.1 hu with rfl | hu
      · exact hout hs
      · exact ih₁ u hu (List.mem_append_left _ hs)
    · exact ih₂ u hu (List.mem_append_left _ hs)
  | abort hout _ ih =>
    intro u hu hs
    rcases List.mem_cons.1 hu with rfl | hu
    · exact hout hs
    · exact ih u hu (List.mem_append_left _ hs)

/-- **No name is entered twice.** -/
theorem names_nodup (h : scope.Traverses seen es us ws r) : (scope.namesOf us).Nodup := by
  induction h with
  | done => exact List.nodup_nil
  | stop => exact List.nodup_nil
  | notice _ ih => exact ih
  | known _ _ ih => exact ih
  | @enter seen t _ us vs _ _ _ hout h₁ h₂ ih₁ ih₂ =>
    have hfirst : (scope.namesOf (t :: us)).Nodup := by
      refine List.nodup_cons.2 ⟨fun hin => ?_, ih₁⟩
      obtain ⟨u, hu, hn⟩ := mem_namesOf.1 hin
      exact h₁.fresh u hu (by simp [hn])
    rw [namesOf_append]
    refine List.nodup_append.2 ⟨hfirst, ih₂, fun a ha b hb hab => ?_⟩
    obtain ⟨v, hv, rfl⟩ := mem_namesOf.1 hb
    exact h₂.fresh v hv (List.mem_append_right _ (hab ▸ ha))
  | @abort _ t _ us _ _ hout h₁ ih =>
    refine List.nodup_cons.2 ⟨fun hin => ?_, ih⟩
    obtain ⟨u, hu, hn⟩ := mem_namesOf.1 hin
    exact h₁.fresh u hu (by simp [hn])

/-- Two entered types with one name are one type. -/
theorem eq_of_name_eq (h : scope.Traverses seen es us ws r) {u v : TypeExpr} (hu : u ∈ us) (hv : v ∈ us)
    (hn : scope.types.typeName u = scope.types.typeName v) : u = v :=
  List.inj_on_of_nodup_map h.names_nodup hu hv hn

/-! ### What was asked for has been done -/

/-- **A traversal without failure is closed.**  Every type that the errands, or the fields of a type that was
entered, refer to was seen before or has its name entered. -/
theorem closed (h : scope.Traverses seen es us ws none) {t : TypeExpr}
    (ht : .visit t ∈ es ∨ ∃ u ∈ us, .visit t ∈ scope.structErrands u) :
    scope.types.typeName t ∈ seen ++ scope.namesOf us := by
  generalize hr : (none : Option Failure) = r₀ at h
  induction h with
  | done => simp at ht
  | stop => cases hr
  | notice _ ih => exact ih (ht.imp_left (by simp)) hr
  | @known _ u _ _ _ _ hin _ ih =>
    rcases ht with ht | ht
    · rcases List.mem_cons.1 ht with ht | ht
      · cases ht
        exact List.mem_append_left _ hin
      · exact ih (.inl ht) hr
    · exact ih (.inr ht) hr
  | @enter seen u es us vs _ _ _ hout _ _ ih₁ ih₂ =>
    have hfirst : ∀ {n : String}, n ∈ (seen ++ [scope.types.typeName u]) ++ scope.namesOf us →
        n ∈ seen ++ scope.namesOf (u :: us ++ vs) := fun hn => by
      simpa [List.append_assoc] using List.mem_append_left (scope.namesOf vs) hn
    have hrest : ∀ {n : String}, n ∈ (seen ++ scope.namesOf (u :: us)) ++ scope.namesOf vs →
        n ∈ seen ++ scope.namesOf (u :: us ++ vs) := by simp
    rcases ht with ht | ⟨v, hv, ht⟩
    · rcases List.mem_cons.1 ht with ht | ht
      · cases ht
        simp
      · exact hrest (ih₂ (.inl ht) hr)
    · rcases List.mem_append.1 hv with hv | hv
      · rcases List.mem_cons.1 hv with rfl | hv
        · exact hfirst (ih₁ (.inl ht) rfl)
        · exact hfirst (ih₁ (.inr ⟨v, hv, ht⟩) rfl)
      · exact hrest (ih₂ (.inr ⟨v, hv, ht⟩) hr)
  | abort => cases hr

/-- A traversal without failure met none, neither among its errands nor in a type that was entered. -/
theorem stop_notMem (h : scope.Traverses seen es us ws none) (f : Failure) :
    .stop f ∉ es ∧ ∀ u ∈ us, .stop f ∉ scope.structErrands u := by
  generalize hr : (none : Option Failure) = r at h
  induction h with
  | done => simp
  | stop => cases hr
  | notice _ ih => simpa using ih hr
  | known _ _ ih => simpa using ih hr
  | @enter seen t es us vs _ _ _ _ _ _ ih₁ ih₂ =>
    obtain ⟨hfields, hnested⟩ := ih₁ rfl
    obtain ⟨hes, hrest⟩ := ih₂ hr
    refine ⟨by simpa using hes, fun u hu => ?_⟩
    rcases List.mem_append.1 hu with hu | hu
    · rcases List.mem_cons.1 hu with rfl | hu
      · exact hfields
      · exact hnested u hu
    · exact hrest u hu
  | abort => cases hr

/-- Where every type that is asked for was seen, none is entered. -/
theorem of_seen (hstop : ∀ f, .stop f ∉ es) (hseen : ∀ t, .visit t ∈ es → scope.types.typeName t ∈ seen) :
    ∃ ws, scope.Traverses seen es [] ws none := by
  induction es with
  | nil => exact ⟨[], .done⟩
  | cons e es ih =>
    obtain ⟨ws, hws⟩ := ih (fun f hf => hstop f (List.mem_cons_of_mem _ hf)) fun t ht =>
      hseen t (List.mem_cons_of_mem _ ht)
    cases e with
    | visit t => exact ⟨ws, .known (hseen t List.mem_cons_self) hws⟩
    | notice w => exact ⟨w :: ws, .notice hws⟩
    | stop f => exact absurd List.mem_cons_self (hstop f)

/-- **Running through the same errands again enters nothing.** -/
theorem again (h : scope.Traverses seen es us ws none) :
    ∃ ws', scope.Traverses (seen ++ scope.namesOf us) es [] ws' none :=
  of_seen (fun f => (h.stop_notMem f).1) fun _ ht => h.closed (.inl ht)

/-- A failure is that of an errand, or that of a field of a type that was entered. -/
theorem stop_mem {f : Failure} (h : scope.Traverses seen es us ws (some f)) :
    .stop f ∈ es ∨ ∃ u ∈ us, .stop f ∈ scope.structErrands u := by
  generalize hr : some f = r₀ at h
  induction h with
  | done => cases hr
  | stop =>
    cases hr
    exact .inl List.mem_cons_self
  | notice _ ih => exact (ih hr).imp_left (List.mem_cons_of_mem _)
  | known _ _ ih => exact (ih hr).imp_left (List.mem_cons_of_mem _)
  | enter _ _ _ _ ih =>
    rcases ih hr with h | ⟨u, hu, h⟩
    · exact .inl (List.mem_cons_of_mem _ h)
    · exact .inr ⟨u, List.mem_append_right _ hu, h⟩
  | abort _ _ ih =>
    rcases ih hr with h | ⟨u, hu, h⟩
    · exact .inr ⟨_, List.mem_cons_self, h⟩
    · exact .inr ⟨u, List.mem_cons_of_mem _ hu, h⟩

end Traverses

/-! ### Reachable types -/

/-- The types that paths from some errands reach, each type on a path being one that may be entered. -/
inductive Reachable (scope : Scope) (mayEnter : TypeExpr → Prop) (es : List Errand) : TypeExpr → Prop
  | root {t : TypeExpr} : .visit t ∈ es → mayEnter t → Reachable scope mayEnter es t
  | step {t u : TypeExpr} : Reachable scope mayEnter es t → .visit u ∈ scope.structErrands t → mayEnter u →
      Reachable scope mayEnter es u

namespace Reachable

variable {mayEnter mayEnter' : TypeExpr → Prop} {es es' : List Errand} {t u : TypeExpr}

theorem mono (h : scope.Reachable mayEnter es t) (hes : es ⊆ es') (hm : ∀ u, mayEnter u → mayEnter' u) :
    scope.Reachable mayEnter' es' t := by
  induction h with
  | root hin ht => exact .root (hes hin) (hm _ ht)
  | step _ hin ht ih => exact .step ih hin (hm _ ht)

/-- A path to a type goes on with a path from its fields. -/
theorem trans (h : scope.Reachable mayEnter es t) (h' : scope.Reachable mayEnter (scope.structErrands t) u) :
    scope.Reachable mayEnter es u := by
  induction h' with
  | root hin hu => exact .step h hin hu
  | step _ hin hu ih => exact .step ih hin hu

end Reachable

namespace Traverses

variable {seen : List String} {es : List Errand} {us : List TypeExpr} {ws : List Warning} {r : Option Failure}

/-- Every type that was entered is reached by a path through entered types. -/
theorem reachable (h : scope.Traverses seen es us ws r) : ∀ u ∈ us, scope.Reachable (· ∈ us) es u := by
  induction h with
  | done => simp
  | stop => simp
  | notice _ ih => exact fun u hu => (ih u hu).mono (List.subset_cons_self _ _) fun _ => id
  | known _ _ ih => exact fun u hu => (ih u hu).mono (List.subset_cons_self _ _) fun _ => id
  | @enter _ t es us vs _ _ _ _ _ _ ih₁ ih₂ =>
    have hroot : scope.Reachable (· ∈ t :: us ++ vs) (.visit t :: es) t :=
      .root List.mem_cons_self List.mem_cons_self
    intro u hu
    rcases List.mem_append.1 hu with hu | hu
    · rcases List.mem_cons.1 hu with rfl | hu
      · exact hroot
      · exact hroot.trans ((ih₁ u hu).mono (fun _ => id) fun v hv =>
          List.mem_append_left _ (List.mem_cons_of_mem _ hv))
    · exact (ih₂ u hu).mono (List.subset_cons_self _ _) fun v hv => List.mem_append_right _ hv
  | @abort _ t es us _ _ _ _ ih =>
    have hroot : scope.Reachable (· ∈ t :: us) (.visit t :: es) t :=
      .root List.mem_cons_self List.mem_cons_self
    intro u hu
    rcases List.mem_cons.1 hu with rfl | hu
    · exact hroot
    · exact hroot.trans ((ih u hu).mono (fun _ => id) fun v hv => List.mem_cons_of_mem _ hv)

end Traverses

end Scope

end RouteDoc
