import RouteDoc.Proofs.Aliases
import RouteDoc.Proofs.DateTimeNotes

/-!
# Inferred requirement

A parameter that leaves open whether it must be given is required unless it has a default or its type admits null.
The parameter says so, and so does its entry, by the default and the mark for null in its schema.  What is inferred
comes from the record as it was given, before the spelling of its truth values is read.  What is given may count
otherwise there than it is read later: of plain values the words for no do, since a text or octets count as true as
soon as they are not empty.

* `Field.Spells`, `Field.truth_eq_ok_iff` — the spellings of a truth value;
* `Field.Given.Misleads`, `Field.Given.misleads_plain_iff` — what counts otherwise than it is read, and which plain
  values do;
* `ParamRecord.validate_eq_ok_iff`, `ParamRecord.required_iff_of_leavesOpen` — what a record says of a parameter;
* `ParamRecord.requirementAgrees_iff_of_validate` — the parameter agrees with itself unless what was given misleads;
* `Scope.admitsNull_iff_of_fragment` — a description is marked for null exactly when its type admits null;
* `Scope.requirementAgrees_of_entry` — an entry agrees with its schema exactly when the parameter agrees with
  its type;
* `Scope.inferred_requirement_agrees_iff` — where the inferred requirement agrees with both.
-/

namespace RouteDoc

/-! ### Spellings of truth values -/

namespace Field

/-- The value is a text, or octets that are one. -/
inductive HoldsText : Value → String → Prop
  | text (word : String) : HoldsText (.str word) word
  | octets {octets : List UInt8} {cs : List Char} :
      Utf8.decode octets = .ok cs → HoldsText (.scalar (.bytes octets)) (String.ofList cs)

/-- The spellings of a truth value. -/
inductive Spells : Value → Bool → Prop
  | itself (b : Bool) : Spells (.bool b) b
  | zero : Spells (.int 0) false
  | one : Spells (.int 1) true
  | zeroPoint {x : Binary64} : x.toInt? = some 0 → Spells (.scalar (.float x)) false
  | onePoint {x : Binary64} : x.toInt? = some 1 → Spells (.scalar (.float x)) true
  | no {v : Value} {word : String} : HoldsText v word → word.map Char.toLower ∈ wordsForFalse → Spells v false
  | yes {v : Value} {word : String} : HoldsText v word → word.map Char.toLower ∈ wordsForTrue → Spells v true

variable {v : Value} {b : Bool}

theorem text_eq_ok_iff (field : String) {given : Option Value} {s : String} :
    text field given = .ok s ↔ given = some (.str s) := by
  unfold text
  split
  · simp
  · next hother =>
    constructor
    · intro h
      cases h
    · intro h
      exact (hother s (Option.some.inj h)).elim
  · simp [wrong]

theorem truthOfNumber_eq_ok_iff {field : String} {n : Option Int} :
    truthOfNumber field n = .ok b ↔ (n = some 0 ∧ b = false) ∨ (n = some 1 ∧ b = true) := by
  unfold truthOfNumber
  split
  · simp [eq_comm]
  · simp [eq_comm]
  · next hzero hone =>
    constructor
    · intro h
      cases h
    · rintro (⟨rfl, -⟩ | ⟨rfl, -⟩)
      · exact (hzero rfl).elim
      · exact (hone rfl).elim

theorem not_mem_wordsForTrue {word : String} (h : word ∈ wordsForFalse) : word ∉ wordsForTrue := by
  revert word
  decide

theorem truthOfWord_eq_ok_iff {field word : String} : truthOfWord field word = .ok b ↔
    (word.map Char.toLower ∈ wordsForFalse ∧ b = false) ∨ (word.map Char.toLower ∈ wordsForTrue ∧ b = true) := by
  unfold truthOfWord
  simp only [List.contains_iff_mem]
  split
  · next hyes =>
    have hno : word.map Char.toLower ∉ wordsForFalse := fun hno => not_mem_wordsForTrue hno hyes
    simp [hyes, hno, eq_comm]
  · next hyes =>
    split
    · next hno => simp [hyes, hno, eq_comm]
    · next hno => simp [wrong, hyes, hno]

/-- A text is read as the word that it holds, whether it is given as such or in octets. -/
theorem truth_of_holdsText {field word : String} (h : HoldsText v word) : truth field v = truthOfWord field word := by
  cases h with
  | text => rfl
  | octets hdecode => simp only [truth, hdecode]

theorem spells_of_word {word : String} (h : HoldsText v word)
    (hword : (word.map Char.toLower ∈ wordsForFalse ∧ b = false) ∨
      (word.map Char.toLower ∈ wordsForTrue ∧ b = true)) : Spells v b := by
  rcases hword with ⟨hword, rfl⟩ | ⟨hword, rfl⟩
  · exact .no h hword
  · exact .yes h hword

/-- A truth field accepts the spellings of truth values and nothing else. -/
theorem truth_eq_ok_iff (field : String) : truth field v = .ok b ↔ Spells v b := by
  constructor
  · intro h
    unfold truth at h
    split at h
    · cases h
      exact .itself _
    · rcases truthOfNumber_eq_ok_iff.1 h with ⟨hi, rfl⟩ | ⟨hi, rfl⟩
      · cases hi
        exact .zero
      · cases hi
        exact .one
    · rcases truthOfNumber_eq_ok_iff.1 h with ⟨hx, rfl⟩ | ⟨hx, rfl⟩
      · exact .zeroPoint hx
      · exact .onePoint hx
    · exact spells_of_word (.text _) (truthOfWord_eq_ok_iff.1 h)
    · split at h
      · next hdecode => exact spells_of_word (.octets hdecode) (truthOfWord_eq_ok_iff.1 h)
      · cases h
    · cases h
  · intro h
    cases h with
    | itself => rfl
    | zero => rfl
    | one => rfl
    | zeroPoint hx => exact truthOfNumber_eq_ok_iff.2 (.inl ⟨hx, rfl⟩)
    | onePoint hx => exact truthOfNumber_eq_ok_iff.2 (.inr ⟨hx, rfl⟩)
    | no htext hword => exact (truth_of_holdsText htext).trans (truthOfWord_eq_ok_iff.2 (.inl ⟨hword, rfl⟩))
    | yes htext hword => exact (truth_of_holdsText htext).trans (truthOfWord_eq_ok_iff.2 (.inr ⟨hword, rfl⟩))

/-- The value is a word for no, as a text or in octets. -/
def IsWordForNo (v : Value) : Prop := ∃ word, HoldsText v word ∧ word.map Char.toLower ∈ wordsForFalse

theorem not_isWordForNo_bool {c : Bool} : ¬ IsWordForNo (.bool c) := by
  rintro ⟨word, h, -⟩
  cases h

/-- What holds a text that is not empty counts as true. -/
theorem isTruthy_of_holdsText {word : String} (h : HoldsText v word) (hword : word ≠ "") : v.isTruthy = true := by
  cases h with
  | text => simpa [Value.isTruthy] using hword
  | @octets octets cs hdecode =>
    cases octets with
    | nil =>
      cases hdecode
      exact (hword rfl).elim
    | cons => rfl

theorem ne_empty_of_mem {word : String} {words : List String} (hempty : "" ∉ words)
    (h : word.map Char.toLower ∈ words) : word ≠ "" := by
  rintro rfl
  rw [String.map_eq_empty.2 rfl] at h
  exact hempty h

/-- **What counts as true is what is read as true, and the words for no.** -/
theorem Spells.isTruthy_iff (h : Spells v b) : v.isTruthy = true ↔ b = true ∨ IsWordForNo v := by
  cases h with
  | itself b => simp [Value.isTruthy, not_isWordForNo_bool]
  | zero =>
    have hno : ¬ IsWordForNo (.int 0) := nofun
    simp [Value.isTruthy, hno]
  | one => simp [Value.isTruthy]
  | @zeroPoint x hx =>
    have hno : ¬ IsWordForNo (.scalar (.float x)) := nofun
    simp [Value.isTruthy, hno, hx]
  | onePoint hx => simp [Value.isTruthy, hx]
  | no htext hword =>
    exact ⟨fun _ => .inr ⟨_, htext, hword⟩,
      fun _ => isTruthy_of_holdsText htext (ne_empty_of_mem (by decide) hword)⟩
  | yes htext hword =>
    exact ⟨fun _ => .inl rfl, fun _ => isTruthy_of_holdsText htext (ne_empty_of_mem (by decide) hword)⟩

/-- A spelling has one reading. -/
theorem Spells.unique {c : Bool} (hb : Spells v b) (hc : Spells v c) : b = c := by
  rw [← truth_eq_ok_iff ""] at hb hc
  exact Except.ok.inj (hb.symm.trans hc)

/-- What is given counts otherwise than it is read. -/
def Given.Misleads (given : Given) : Prop := ∃ b, Spells given.value b ∧ given.counts ≠ b

theorem Given.misleads_iff {given : Given} (h : Spells given.value b) : given.Misleads ↔ given.counts ≠ b := by
  constructor
  · rintro ⟨c, hc, hne⟩
    rwa [h.unique hc]
  · exact fun hne => ⟨b, h, hne⟩

/-- **Of plain values, the words for no mislead**, and they alone. -/
theorem Given.misleads_plain_iff : (Given.plain v).Misleads ↔ IsWordForNo v := by
  constructor
  · rintro ⟨b, hspells, hcounts⟩
    have hiff : v.isTruthy = true ↔ b = true ∨ IsWordForNo v := hspells.isTruthy_iff
    cases b with
    | true => exact absurd (hiff.2 (.inl rfl)) hcounts
    | false =>
      have htrue : v.isTruthy = true := by simpa [Given.plain] using hcounts
      exact (hiff.1 htrue).resolve_left Bool.false_ne_true
  · rintro ⟨word, htext, hword⟩
    have hcounts : v.isTruthy = true := isTruthy_of_holdsText htext (ne_empty_of_mem (by decide) hword)
    exact ⟨false, .no htext hword, fun h => Bool.false_ne_true (h.symm.trans hcounts)⟩

end Field

/-! ### Records of parameters -/

/-- The type is a union, below wrappers, with a null marker among its members. -/
def TypeExpr.AdmitsNull (t : TypeExpr) : Prop :=
  ∃ members, t.stripWrappers = .unionOf members ∧ ∃ m ∈ members, m.isNullMarker = true

theorem TypeExpr.isNullable_iff {t : TypeExpr} : t.isNullable = true ↔ t.AdmitsNull := by
  unfold isNullable members? AdmitsNull
  cases t.stripWrappers <;> simp

/-- What a type is but for null comes with its nullability. -/
theorem TypeExpr.nullable_of_payload? {t payload : TypeExpr} {nullable : Bool}
    (h : t.payload? = some (nullable, payload)) : nullable = t.isNullable := by
  unfold payload? at h
  unfold isNullable
  split at h
  · next hmembers =>
    cases h
    rw [hmembers]
  · cases h
  · next hmembers =>
    cases h
    rw [hmembers]

/-- The parameter is required exactly when it has no default and its type, seen through an extractor, admits no
null. -/
def Param.RequirementAgrees (types : Declarations) (p : Param) : Prop :=
  p.required = true ↔ p.hasDefault = false ∧ ¬ (types.extractType p.type).AdmitsNull

namespace ParamRecord

variable {types : Declarations} {r : ParamRecord} {p : Param}

/-- The record does not say whether the parameter is required. -/
def LeavesOpen (r : ParamRecord) : Prop := r.required = none ∨ r.required = some .null

/-- The parameter that a record describes: it has a name, it says whether it is required, and it spells whether there
is a default. -/
theorem validate_eq_ok_iff : r.validate types = .ok p ↔
    r.name = some (.str p.name) ∧ r.type = p.type ∧ r.requirement types = .ok p.required ∧
      Field.Spells r.givenDefault.value p.hasDefault ∧ r.default = p.default := by
  rw [← Field.text_eq_ok_iff "name", ← Field.truth_eq_ok_iff "has_default", validate]
  obtain ⟨name, type, required, hasDefault, default⟩ := p
  split
  · next n q d hname hrequired hdefault =>
    rw [hname, hrequired, hdefault]
    simp [and_left_comm]
  · next hwrong =>
    constructor
    · intro h
      cases h
    · rintro ⟨hname, -, hrequired, hdefault, -⟩
      exact absurd hdefault (hwrong _ _ _ hname hrequired)

theorem requirement_of_leavesOpen (h : r.LeavesOpen) :
    r.requirement types = .ok (types.infersRequired r.type r.givenDefault.counts) := by
  unfold requirement
  rcases h with h | h
  · rw [h]
  · rw [h]

/-- **What is inferred of a record that leaves the requirement open**: the parameter is required unless what is given
for a default counts as true or its type admits null. -/
theorem required_iff_of_leavesOpen (hopen : r.LeavesOpen) (h : r.validate types = .ok p) :
    p.required = true ↔ r.givenDefault.counts = false ∧ ¬ (types.extractType p.type).AdmitsNull := by
  obtain ⟨-, htype, hrequired, -, -⟩ := validate_eq_ok_iff.1 h
  rw [requirement_of_leavesOpen hopen, htype, Except.ok.injEq] at hrequired
  rw [← hrequired, ← TypeExpr.isNullable_iff, Declarations.infersRequired, Bool.and_eq_true, Bool.not_eq_true',
    Bool.not_eq_true', Bool.not_eq_true]

/-- The inferred requirement agrees with default and type unless what is given for the default misleads and the type
admits no null. -/
theorem requirementAgrees_iff_of_validate (hopen : r.LeavesOpen) (h : r.validate types = .ok p) :
    p.RequirementAgrees types ↔ (r.givenDefault.Misleads → (types.extractType p.type).AdmitsNull) := by
  obtain ⟨-, -, -, hspells, -⟩ := validate_eq_ok_iff.1 h
  rw [Param.RequirementAgrees, required_iff_of_leavesOpen hopen h, Field.Given.misleads_iff hspells]
  by_cases hnull : (types.extractType p.type).AdmitsNull
  · simp [hnull]
  · -- without null, the two sides compare what is counted and what is read
    cases r.givenDefault.counts <;> cases p.hasDefault <;> simp [hnull]

/-- A plain value that is given for a default never leaves a parameter required that has one. -/
theorem hasDefault_of_required {v : Value} (hplain : r.givenDefault = .plain v) (hopen : r.LeavesOpen)
    (h : r.validate types = .ok p) (hrequired : p.required = true) : p.hasDefault = false := by
  obtain ⟨-, -, -, hspells, -⟩ := validate_eq_ok_iff.1 h
  have hcounts := ((required_iff_of_leavesOpen hopen h).1 hrequired).1
  rw [hplain] at hspells hcounts
  rw [← Bool.not_eq_true]
  intro hdefault
  exact Bool.false_ne_true (hcounts.symm.trans (hspells.isTruthy_iff.2 (.inl hdefault)))

end ParamRecord

/-! ### Entries -/

/-- The entry is required exactly when its schema has neither a default nor the mark for null. -/
def Value.RequirementAgrees (entry : Value) : Prop :=
  ∃ required schema, entry.get? "required" = some (.bool required) ∧ entry.get? "schema" = some schema ∧
    (required = true ↔ schema.get? "default" = none ∧ schema.get? "nullable" = none)

theorem RequestParameter.get?_required (e : RequestParameter) :
    e.toValue.get? "required" = some (.bool e.required) := rfl

namespace Scope

variable {scope : Scope} {location : Location} {p : Param}

/-- **A description is marked for null exactly when its type admits null.** -/
theorem admitsNull_iff_of_fragment {t : TypeExpr} {s : Schema} (h : scope.fragment t = some s) :
    s.nullable = true ↔ t.AdmitsNull := by
  obtain ⟨nullable, payload, hp⟩ := exists_payload?_of_fragment h
  rw [nullable_eq_of_payload? hp h, TypeExpr.nullable_of_payload? hp, TypeExpr.isNullable_iff]

/-- The schema of an entry has a default exactly when its parameter has one, as long as that can be documented. -/
theorem get?_default_entryOf_iff (scope : Scope) (location : Location) (s : Schema)
    (h : ∃ v, documentedDefault p = .ok v) :
    (scope.entryOf location p s (defaultOf p)).schema.toValue.get? "default" = none ↔ p.hasDefault = false := by
  rw [← isSome_get?_default (scope.entryOf location p s (defaultOf p)).schema.schema h, Option.isSome_eq_false_iff,
    Option.isNone_iff_eq_none]
  rfl

/-- It has the mark for null exactly when the type, seen through an extractor, admits null. -/
theorem get?_nullable_entryOf_iff (location : Location) {s : Schema} (default : Option Value)
    (hs : scope.fragment (scope.types.extractType p.type) = some s) :
    (scope.entryOf location p s default).schema.toValue.get? "nullable" = none ↔
      ¬ (scope.types.extractType p.type).AdmitsNull := by
  have hname : ¬ "default" = "nullable" := by decide
  rw [Property.get?_toValue, Schema.get?_nullable, nullable_schema_entryOf, if_neg hname, Option.or_none,
    ← admitsNull_iff_of_fragment hs]
  cases s.nullable <;> simp

/-- An entry is made only where the default can be documented. -/
theorem exists_documentedDefault_of_entry {b after : Builder} {e : RequestParameter}
    (h : (scope.entry location p).run' b = (.ok (some e), after)) : ∃ v, documentedDefault p = .ok v := by
  rw [entry, Build.run'_bind] at h
  rcases hbuild : (scope.build (scope.types.extractType p.type)).run' b with ⟨_ | _ | s, c⟩
  · rw [hbuild] at h
    cases h
  · rw [hbuild] at h
    cases h
  · rw [hbuild] at h
    dsimp only at h
    rw [Build.run'_bind, Build.run'_lift] at h
    cases hdefault : documentedDefault p with
    | ok v => exact ⟨v, rfl⟩
    | error f =>
      rw [hdefault] at h
      cases h

/-- **The entry of a parameter agrees with its schema exactly when the parameter agrees with its type**, wherever it
is read from but the path. -/
theorem requirementAgrees_of_entry (hlocation : location ≠ .path) {b after : Builder} {e : RequestParameter}
    (h : (scope.entry location p).run' b = (.ok (some e), after)) :
    e.toValue.RequirementAgrees ↔ p.RequirementAgrees scope.types := by
  have hwritten := exists_documentedDefault_of_entry h
  obtain ⟨s, hs, rfl⟩ := of_entry_eq_ok h
  have hrequired : (scope.entryOf location p s (defaultOf p)).required = p.required := by simp [entryOf, hlocation]
  have hdefault := get?_default_entryOf_iff scope location s hwritten
  have hnullable := get?_nullable_entryOf_iff location (defaultOf p) hs
  constructor
  · rintro ⟨required, schema, hfirst, hsecond, hagrees⟩
    rw [RequestParameter.get?_required, hrequired] at hfirst
    cases hfirst
    cases hsecond
    rwa [hdefault, hnullable] at hagrees
  · intro hagrees
    refine ⟨p.required, _, ?_, RequestParameter.get?_schema _, ?_⟩
    · rw [RequestParameter.get?_required, hrequired]
    · rwa [hdefault, hnullable]

/-- **Where an inferred requirement agrees with the parameter and with its entry.**  Take any record that leaves open
whether the parameter is required and that is the record of a parameter, whatever its type is and whatever is given
for its default.  The parameter is required exactly when it has no default and its type admits no null, unless what
is given for the default counts otherwise than it is read and the type admits no null.  Whatever is registered, and
wherever the parameter is read from but the path, an entry that is made for it is required exactly when its schema has
neither a default nor the mark for null, with the same exception.  A plain value counts otherwise than it is read
exactly when it is a word for no, as a text or in octets; a parameter that it leaves required has no default and a
type that admits no null. -/
theorem inferred_requirement_agrees_iff (scope : Scope) {r : ParamRecord} {p : Param} (hopen : r.LeavesOpen)
    (h : r.validate scope.types = .ok p) :
    (p.RequirementAgrees scope.types ↔ (r.givenDefault.Misleads → (scope.types.extractType p.type).AdmitsNull)) ∧
      (∀ (location : Location) (b after : Builder) (e : RequestParameter), location ≠ .path →
        (scope.entry location p).run' b = (.ok (some e), after) →
          (e.toValue.RequirementAgrees ↔
            (r.givenDefault.Misleads → (scope.types.extractType p.type).AdmitsNull))) ∧
      ∀ v, r.givenDefault = .plain v →
        (r.givenDefault.Misleads ↔ Field.IsWordForNo v) ∧
          (p.required = true → p.hasDefault = false ∧ ¬ (scope.types.extractType p.type).AdmitsNull) := by
  have hagrees := ParamRecord.requirementAgrees_iff_of_validate hopen h
  refine ⟨hagrees, fun location b after e hlocation hentry => ?_, fun v hplain => ⟨?_, fun hrequired => ?_⟩⟩
  · rw [requirementAgrees_of_entry hlocation hentry]
    exact hagrees
  · rw [hplain]
    exact Field.Given.misleads_plain_iff
  · exact ⟨ParamRecord.hasDefault_of_required hplain hopen h hrequired,
      ((ParamRecord.required_iff_of_leavesOpen hopen h).1 hrequired).2⟩

/-- The record of a limit, which spells whether there is a default. -/
def limitRecord (type : TypeExpr) (spelling : String) (default : Datum) : ParamRecord :=
  ⟨some (.str "limit"), type, none, some (.plain (.str spelling)), default⟩

/-- A limit in the query, which may be null, below an annotation and an extractor. -/
def nullableLimit : TypeExpr := .extractor .query (some (.wrapped .annotated (.optional (.builtin .int))))

/-- A default that is denied in words does no harm where the type admits null; one that is granted in words never
does. -/
theorem inferred_requirement_agrees_iff_limits :
    ∃ p q d e after after',
      (limitRecord nullableLimit "No" .null).validate [] = .ok p ∧ p.RequirementAgrees [] ∧
      (entry ⟨[], 2024, 0⟩ .query p).run' ⟨[], []⟩ = (.ok (some d), after) ∧ d.toValue.RequirementAgrees ∧
      (limitRecord (.builtin .int) "Yes" (.int 10)).validate [] = .ok q ∧ q.RequirementAgrees [] ∧
      (entry ⟨[], 2024, 0⟩ .header q).run' ⟨[], []⟩ = (.ok (some e), after') ∧ e.toValue.RequirementAgrees := by
  have hnull : (limitRecord nullableLimit "No" .null).validate [] =
      .ok ⟨"limit", nullableLimit, false, false, .null⟩ :=
    ParamRecord.validate_eq_ok_iff.2 ⟨rfl, rfl, rfl, .no (.text _) (by decide +kernel), rfl⟩
  have hten : (limitRecord (.builtin .int) "Yes" (.int 10)).validate [] =
      .ok ⟨"limit", .builtin .int, false, true, .int 10⟩ :=
    ParamRecord.validate_eq_ok_iff.2 ⟨rfl, rfl, rfl, .yes (.text _) (by decide +kernel), rfl⟩
  have hadmits : (Declarations.extractType [] nullableLimit).AdmitsNull := TypeExpr.isNullable_iff.1 (by decide +kernel)
  have hgranted : ¬ (limitRecord (.builtin .int) "Yes" (.int 10)).givenDefault.Misleads := by
    refine mt Field.Given.misleads_plain_iff.1 ?_
    rintro ⟨word, htext, hword⟩
    cases htext
    revert hword
    decide +kernel
  obtain ⟨hp, hentries, -⟩ := inferred_requirement_agrees_iff ⟨[], 2024, 0⟩ (.inl rfl) hnull
  obtain ⟨hq, hentries', -⟩ := inferred_requirement_agrees_iff ⟨[], 2024, 0⟩ (.inl rfl) hten
  obtain ⟨d, after, hd⟩ := exists_entry ⟨[], 2024, 0⟩ .query ⟨"limit", nullableLimit, false, false, .null⟩
    (b := ⟨[], []⟩) (by decide +kernel)
  obtain ⟨e, after', he⟩ := exists_entry ⟨[], 2024, 0⟩ .header ⟨"limit", .builtin .int, false, true, .int 10⟩
    (b := ⟨[], []⟩) (by decide +kernel)
  exact ⟨_, _, d, e, after, after', hnull, hp.2 fun _ => hadmits, hd,
    (hentries _ _ _ _ (by decide) hd).2 fun _ => hadmits, hten, hq.2 fun h => absurd h hgranted, he,
    (hentries' _ _ _ _ (by decide) he).2 fun h => absurd h hgranted⟩

/-- **A default that is denied in words** leaves a limit without a default, and its type admits no null; still the
limit is not required, and its entry is not either. -/
theorem denied_default_not_required :
    ∃ p e after, (limitRecord (.builtin .int) "false" .null).LeavesOpen ∧
      (limitRecord (.builtin .int) "false" .null).validate [] = .ok p ∧
      p.hasDefault = false ∧ p.required = false ∧ ¬ p.RequirementAgrees [] ∧
      (entry ⟨[], 2024, 0⟩ .query p).run' ⟨[], []⟩ = (.ok (some e), after) ∧ ¬ e.toValue.RequirementAgrees := by
  have hdenied : (limitRecord (.builtin .int) "false" .null).validate [] =
      .ok ⟨"limit", .builtin .int, false, false, .null⟩ :=
    ParamRecord.validate_eq_ok_iff.2 ⟨rfl, rfl, rfl, .no (.text _) (by decide +kernel), rfl⟩
  have hfirm : ¬ (Declarations.extractType [] (.builtin .int)).AdmitsNull := by
    rw [← TypeExpr.isNullable_iff]
    decide +kernel
  have hdisagrees : ¬ Param.RequirementAgrees [] ⟨"limit", .builtin .int, false, false, .null⟩ :=
    fun h => Bool.false_ne_true (h.2 ⟨rfl, hfirm⟩)
  obtain ⟨e, after, he⟩ := exists_entry ⟨[], 2024, 0⟩ .query ⟨"limit", .builtin .int, false, false, .null⟩
    (b := ⟨[], []⟩) (by decide +kernel)
  exact ⟨_, e, after, .inl rfl, hdenied, rfl, rfl, hdisagrees, he,
    fun h => hdisagrees ((requirementAgrees_of_entry (by decide) he).1 h)⟩

end Scope

end RouteDoc
