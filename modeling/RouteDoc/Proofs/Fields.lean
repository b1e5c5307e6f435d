import RouteDoc.Proofs.LastWords

/-!
# Fields of structured types

What all readers of fields have in common: the fields of a type have distinct names, whichever declaration of a
name came last, and a field that must be given has no default, whether its being required is inferred or declared.

* `Param.distinct_names_nodup`, `Param.mem_of_mem_distinct` — what is left of a list of parameters;
* `Declarations.fieldsOf_names_nodup` — no two fields of a type have one name;
* `Declarations.fieldsOf_coherent` — a required field has no default.
-/

namespace RouteDoc

/-- A result of which something is seen is there. -/
theorem exists_of_toOption {ε α β : Type} {x : Except ε α} {g : α → β} {b : β} (h : x.toOption.map g = some b) :
    ∃ a, x = .ok a ∧ g a = b := by
  cases x with
  | error e => cases h
  | ok a => exact ⟨a, rfl, Option.some.inj h⟩

/-- A step that leads to a result led through a result. -/
theorem exists_of_bind_eq_ok {ε α β : Type} {x : Except ε α} {k : α → Except ε β} {b : β}
    (h : x >>= k = .ok b) : ∃ a, x = .ok a ∧ k a = .ok b := by
  cases x with
  | error e => cases h
  | ok a => exact ⟨a, rfl, h⟩

/-- A step that fails failed at once or after a result. -/
theorem of_bind_eq_error {ε α β : Type} {x : Except ε α} {k : α → Except ε β} {e : ε} (h : x >>= k = .error e) :
    x = .error e ∨ ∃ a, x = .ok a ∧ k a = .error e := by
  cases x with
  | error e' =>
    cases h
    exact .inl rfl
  | ok a => exact .inr ⟨a, rfl, h⟩

theorem exists_of_map_eq_ok {ε α β : Type} {x : Except ε α} {f : α → β} {b : β} (h : x.map f = .ok b) :
    ∃ a, x = .ok a ∧ f a = b := by
  cases x with
  | error e => cases h
  | ok a => exact ⟨a, rfl, Except.ok.inj h⟩

theorem map_eq_error_iff {ε α β : Type} {x : Except ε α} {g : α → β} {e : ε} : x.map g = .error e ↔ x = .error e := by
  cases x <;> simp [Except.map]

namespace Param

variable {p : Param} {ps : List Param}

/-- **A list of parameters without repetitions has distinct names.** -/
theorem distinct_names_nodup (ps : List Param) : ((distinct ps).map (·.name)).Nodup := by
  rw [distinct_eq]
  exact nodup_lastWords Param.name ps

theorem mem_of_mem_distinct (h : p ∈ distinct ps) : p ∈ ps := by
  rw [distinct_eq] at h
  exact mem_of_mem_lastWords h

/-- A parameter that must be given has no default. -/
def Coherent (p : Param) : Prop := p.required = true → p.hasDefault = false

theorem coherent_infer (env : Declarations) (name : String) (type : TypeExpr) (default : Option Datum) :
    (infer env name type default).Coherent := by
  intro h
  have h : (!default.isSome && !(env.extractType type).isNullable) = true := h
  simp only [Bool.and_eq_true, Bool.not_eq_true'] at h
  exact h.1

end Param

namespace Declarations

variable {env : Declarations} {d : Declaration} {m : Moment} {ps qs : List Param} {f : Failure}

theorem unlessFault_eq_ok {defaults : List Default} : unlessFault m defaults qs = .ok ps ↔
    (∀ default ∈ defaults, default.fault? m = none) ∧ qs = ps := by
  rw [← List.findSome?_eq_none_iff, unlessFault]
  cases defaults.findSome? (Default.fault? m) <;> simp

theorem dataclassParams_coherent (h : env.dataclassParams d m = .ok ps) : ∀ p ∈ ps, p.Coherent := by
  obtain ⟨hints, -, hps⟩ := exists_of_bind_eq_ok h
  obtain ⟨-, rfl⟩ := unlessFault_eq_ok.1 hps
  simp only [List.forall_mem_map]
  exact fun _ _ => Param.coherent_infer _ _ _ _

theorem modelParams_coherent (h : env.modelParams d m = .ok ps) : ∀ p ∈ ps, p.Coherent := by
  obtain ⟨-, rfl⟩ := unlessFault_eq_ok.1 h
  simp only [List.forall_mem_map]
  intro f _ hrequired
  simpa using hrequired

theorem dictParams_coherent (h : env.dictParams d = .ok ps) : ∀ p ∈ ps, p.Coherent := by
  obtain ⟨hints, -, hps⟩ := exists_of_bind_eq_ok h
  cases hps
  simp only [List.forall_mem_map]
  exact fun _ _ _ => rfl

theorem tupleParams_coherent {tuple : Declaration} (h : env.tupleParams d tuple = .ok ps) :
    ∀ p ∈ ps, p.Coherent := by
  obtain ⟨hints, -, hps⟩ := exists_of_bind_eq_ok h
  cases hps
  simp only [List.forall_mem_map]
  exact fun _ _ => Param.coherent_infer _ _ _ _

theorem signatureParams_coherent {s : Signature} (h : env.signatureParams s = .ok ps) : ∀ p ∈ ps, p.Coherent := by
  obtain ⟨hints, -, hps⟩ := exists_of_bind_eq_ok h
  cases hps
  simp only [List.forall_mem_map]
  exact fun _ _ => Param.coherent_infer _ _ _ _

theorem classParams_coherent (h : env.classParams d = .ok ps) : ∀ p ∈ ps, p.Coherent := by
  obtain ⟨hints, -, hps⟩ := exists_of_bind_eq_ok h
  have hattributes : ∀ p ∈ (hints.filter fun e => isShown e.1 e.2).map fun e =>
      Param.infer env e.1 e.2 (attribute? d e.1), p.Coherent := by
    simp only [List.forall_mem_map]
    exact fun _ _ => Param.coherent_infer _ _ _ _
  split at hps
  · obtain ⟨own, hown, hps⟩ := exists_of_bind_eq_ok hps
    cases hps
    intro p hp
    rcases List.mem_append.1 hp with hp | hp
    · exact hattributes p hp
    · exact signatureParams_coherent hown p hp
  · cases hps
    exact hattributes

theorem bareExtractorParams_coherent (e : Extractor) : ∀ p ∈ env.bareExtractorParams e, p.Coherent := by
  unfold bareExtractorParams
  split
  · simpa using Param.coherent_infer _ _ _ _
  · split
    · simpa using Param.coherent_infer _ _ _ _
    · simp

theorem declaredParams_coherent (h : env.declaredParams d m = .ok ps) : ∀ p ∈ ps, p.Coherent := by
  unfold declaredParams at h
  split at h
  · exact modelParams_coherent h
  split at h
  · exact dataclassParams_coherent h
  split at h
  · exact dictParams_coherent h
  split at h
  · exact tupleParams_coherent h
  · cases h
    simp
  · exact classParams_coherent h

/-- **A required field has no default**, whichever reader it comes from. -/
theorem fieldsOf_coherent {t : TypeExpr} (h : env.fieldsOf t m = .ok ps) : ∀ p ∈ ps, p.Coherent := by
  unfold fieldsOf at h
  split at h
  · split at h
    · obtain ⟨qs, hqs, hps⟩ := exists_of_bind_eq_ok h
      cases hps
      exact fun p hp => declaredParams_coherent hqs p (Param.mem_of_mem_distinct hp)
    · cases h
      simp
  · cases h
    exact bareExtractorParams_coherent _
  · cases h
    simp

/-- **No two fields of a type have one name.** -/
theorem fieldsOf_names_nodup {t : TypeExpr} (h : env.fieldsOf t m = .ok ps) : (ps.map (·.name)).Nodup := by
  unfold fieldsOf at h
  split at h
  · split at h
    · obtain ⟨qs, hqs, hps⟩ := exists_of_bind_eq_ok h
      cases hps
      exact Param.distinct_names_nodup qs
    · cases h
      exact List.nodup_nil
  · next e =>
    cases h
    cases e <;> simp [bareExtractorParams, Extractor.isRequest, Extractor.isBody]
  · cases h
    exact List.nodup_nil

/-! ### Fields that cannot be read -/

/-- The failure is that of reading the text of a reference in one of some modules. -/
def IsUnreadable (env : Declarations) (modules : List (Option Globals)) (f : Failure) : Prop :=
  ∃ text, ∃ m ∈ modules, env.lookUp m text = .error (.raised f)

/-- The modules of the declared types. -/
def modules (env : Declarations) : List (Option Globals) := env.map (·.meaning)

theorem IsUnreadable.mono {ms ms' : List (Option Globals)} (h : env.IsUnreadable ms f) (hms : ms ⊆ ms') :
    env.IsUnreadable ms' f := by
  obtain ⟨text, m, hm, htext⟩ := h
  exact ⟨text, m, hms hm, htext⟩

mutual

theorem unreadable_of_resolve {m : Option Globals} {t : TypeExpr} (h : env.resolve m t = .error (.raised f)) :
    env.IsUnreadable [m] f := by
  cases t with
  | forward text => exact ⟨text, m, List.mem_singleton_self m, h⟩
  | container c historic args =>
    cases args with
    | none => cases h
    | some args =>
      rcases of_bind_eq_error h with h | ⟨types, -, h⟩
      · exact unreadable_of_resolveList h
      · cases h
  | extractor e arg =>
    cases arg with
    | none => cases h
    | some arg =>
      rcases of_bind_eq_error h with h | ⟨type, -, h⟩
      · exact unreadable_of_resolve h
      · cases h
  | unionOf members =>
    rcases of_bind_eq_error h with h | ⟨types, -, h⟩
    · exact unreadable_of_resolveList h
    · cases h
  | wrapped w inner =>
    rcases of_bind_eq_error h with h | ⟨type, -, h⟩
    · exact unreadable_of_resolve h
    · cases h
  | qualified q inner =>
    cases q with
    | initVar => cases h
    | _ =>
      rcases of_bind_eq_error h with h | ⟨type, -, h⟩
      · exact unreadable_of_resolve h
      · cases h
  | _ => cases h

theorem unreadable_of_resolveList {m : Option Globals} {ts : List TypeExpr}
    (h : env.resolveList m ts = .error (.raised f)) : env.IsUnreadable [m] f := by
  cases ts with
  | nil => cases h
  | cons t ts =>
    rcases of_bind_eq_error h with h | ⟨type, -, h⟩
    · exact unreadable_of_resolve h
    · rcases of_bind_eq_error h with h | ⟨types, -, h⟩
      · exact unreadable_of_resolveList h
      · cases h

end

theorem unreadable_of_resolveNamed {annotations : List (String × Annotation)}
    (h : env.resolveNamed annotations = .error (.raised f)) :
    env.IsUnreadable (annotations.map fun e => e.2.meaning) f := by
  induction annotations with
  | nil => cases h
  | cons e annotations ih =>
    rcases of_bind_eq_error h with h | ⟨type, -, h⟩
    · exact (unreadable_of_resolve h).mono (by simp)
    · rcases of_bind_eq_error h with h | ⟨types, -, h⟩
      · exact (ih h).mono (List.subset_cons_self _ _)
      · cases h

theorem unreadable_of_resolveAll {annotations : List (String × Annotation)}
    (h : env.resolveAll annotations = .error f) : env.IsUnreadable (annotations.map fun e => e.2.meaning) f := by
  unfold resolveAll at h
  split at h
  · cases h
  · cases h
  · next hraised =>
    cases h
    exact unreadable_of_resolveNamed hraised

end Declarations

end RouteDoc
