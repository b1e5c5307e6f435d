import Mathlib.Logic.Function.Basic
import RouteDoc.Content

/-!
# The content map of a request body

The content map is made in one pass over the body parameters.  For every family of encodings the pass gathers the
components of the structured payloads, how many parameters there are, and the type of the last one.  What it has
gathered for one family in the end depends on the parameters of that family alone, however they are mixed with
others.  A class may set what is no family at all; parameters of such a class count for none, and where it cannot be a
key the pass fails.

* `Declarations.bodyKind_of_first`, `Declarations.bodyKind_of_leavesKind` — the family of a parameter;
* `Content.Tally`, `Content.tally` — what one pass gathers;
* `Content.foldl_tallyStep` — the pass keeps the families apart;
* `Content.pass`, `Content.map_entriesOf_pass` — the pass, which may fail, and the content map at its end;
* `Content.content_by_family` — when there is a content map, and its media types, components and types.
-/

namespace RouteDoc

namespace Declarations

variable {types : Declarations}

/-! ### The family of a parameter -/

/-- What a class sets as the encoding of a body, be it declared or one of the extractors. -/
def kindSetBy (types : Declarations) : Ancestor → Option (Except Datum BodyKind)
  | .declared id => ((types.find? id).bind fun d => attribute? d "kind").map BodyKind.ofDatum
  | .extractor e => e.ownKind?.map .ok
  | .builtin _ | .container _ => none

theorem bodyKind_of_isBodyExtractor {t : TypeExpr} (h : types.isBodyExtractor t = true) :
    types.bodyKind t = ((types.resolution t).findSome? types.kindSetBy).getD (.ok .json) := by
  rw [bodyKind, if_pos h, extractorAttribute]
  refine congrArg (fun f => (List.findSome? f _).getD _) (funext fun c => ?_)
  cases c <;> rfl

/-- **The encoding of a body extractor** is what the first class in the order of resolution sets that sets any. -/
theorem bodyKind_of_first {t : TypeExpr} {before after : List Ancestor} {c : Ancestor} {kind : Except Datum BodyKind}
    (hbody : types.isBodyExtractor t = true) (hresolution : types.resolution t = before ++ c :: after)
    (hbefore : ∀ b ∈ before, types.kindSetBy b = none) (hc : types.kindSetBy c = some kind) :
    types.bodyKind t = kind := by
  rw [bodyKind_of_isBodyExtractor hbody, hresolution, List.findSome?_append, List.findSome?_eq_none_iff.2 hbefore,
    Option.none_or, List.findSome?_cons, hc]
  rfl

/-- No declared class sets an encoding for the type. -/
def LeavesKind (types : Declarations) (t : TypeExpr) : Prop :=
  ∀ id, .declared id ∈ types.resolution t → types.kindSetBy (.declared id) = none

/-- Where no declared class sets the encoding, the extractors do. -/
theorem findSome?_kindSetBy {order : List Ancestor}
    (h : ∀ id, .declared id ∈ order → types.kindSetBy (.declared id) = none) :
    order.findSome? types.kindSetBy = (order.filterMap Ancestor.extractor?).findSome? fun e => e.ownKind?.map .ok := by
  induction order with
  | nil => rfl
  | cons c order ih =>
    have ih := ih fun id hid => h id (List.mem_cons_of_mem _ hid)
    cases c with
    | declared id =>
      rw [List.findSome?_cons, h id List.mem_cons_self, List.filterMap_cons_none (by rfl), ih]
    | extractor e =>
      rw [List.filterMap_cons_some (by rfl), List.findSome?_cons, List.findSome?_cons, ih]
      rfl
    | builtin b => rw [List.filterMap_cons_none (by rfl), ← ih, List.findSome?_cons, kindSetBy]
    | container c => rw [List.filterMap_cons_none (by rfl), ← ih, List.findSome?_cons, kindSetBy]

/-- Of several extractors, the nearest one of request bodies sets the encoding. -/
theorem findSome?_ownKind? (es : List Extractor) :
    (es.findSome? fun e => e.ownKind?.map (Except.ok : BodyKind → Except Datum BodyKind))
      = (es.find? Extractor.isBody).map fun e => .ok e.bodyKind := by
  induction es with
  | nil => rfl
  | cons e es ih =>
    rw [List.findSome?_cons, List.find?_cons, ih, Extractor.ownKind?]
    cases e.isBody <;> rfl

/-- What is no extractor of bodies counts as JSON. -/
theorem bodyKind_of_not_isBodyExtractor {t : TypeExpr} (h : types.isBodyExtractor t = false) :
    types.bodyKind t = .ok .json := by
  rw [bodyKind, h]
  rfl

/-- An extractor that is no declared class is of its own family. -/
theorem bodyKind_extractor (types : Declarations) (e : Extractor) (arg : Option TypeExpr) :
    types.bodyKind (.extractor e arg) = .ok e.bodyKind := by
  cases e <;> rfl

/-- **The family of a type**, where no declared class changes it: that of the extractor which it is or derives from,
and JSON for what is no extractor of bodies. -/
theorem bodyKind_of_leavesKind {t : TypeExpr} (h : types.LeavesKind t) :
    types.bodyKind t = .ok ((types.extractor? t).elim .json Extractor.bodyKind) := by
  cases hbody : (types.extractors t).find? Extractor.isBody with
  | some e =>
    have hany : types.isBodyExtractor t = true :=
      List.any_eq_true.2 ⟨e, List.mem_of_find?_eq_some hbody, List.find?_some hbody⟩
    rw [bodyKind_of_isBodyExtractor hany, findSome?_kindSetBy h]
    show (((types.extractors t).findSome? _).getD _) = _
    rw [findSome?_ownKind?, extractor?, hbody]
    rfl
  | none =>
    have hnone : ∀ e ∈ types.extractors t, ¬ e.isBody = true := List.find?_eq_none.1 hbody
    have hany : types.isBodyExtractor t = false := by
      rw [isBodyExtractor, List.any_eq_false]
      exact hnone
    rw [bodyKind_of_not_isBodyExtractor hany, extractor?, hbody, Option.none_or]
    -- the nearest extractor is none of request bodies, so it is of the JSON family
    cases hhead : (types.extractors t).head? with
    | none => rfl
    | some e =>
      have hother : ¬ e.isBody = true := hnone e (List.mem_of_head? hhead)
      cases e <;> first | rfl | exact absurd rfl hother

end Declarations

namespace Content

variable {types : Declarations} {ps : List Param}

/-! ### One pass over the parameters -/

/-- What is known of one family on the way through the parameters: the components of its structured payloads, how
many parameters it has, and the type of the last one. -/
structure Tally where
  components : List String
  count : Nat
  word : TypeWord

namespace Tally

/-- Before any parameter. -/
def empty : Tally := ⟨[], 0, .string⟩

/-- One more parameter of the family. -/
def add (types : Declarations) (t : Tally) (p : Param) : Tally where
  components :=
    if types.isStruct (payload types p) then t.components ++ [types.typeName (payload types p)] else t.components
  count := t.count + 1
  word := types.typeNameOf (payload types p)

/-- The encoding in which a family is combined. -/
def encoding (t : Tally) (kind : BodyKind) : Encoding where
  kind := kind
  components := t.components
  word := if kind = .text then if 1 < t.count then .string else t.word else .object

end Tally

/-- One step of the pass; a parameter whose family is unknown counts for none. -/
def tallyStep (types : Declarations) (tallies : BodyKind → Tally) (p : Param) : BodyKind → Tally :=
  match types.bodyKind p.type with
  | .ok kind => Function.update tallies kind ((tallies kind).add types p)
  | .error _ => tallies

/-- What the pass gathers. -/
def tally (types : Declarations) (ps : List Param) : BodyKind → Tally :=
  ps.foldl (tallyStep types) fun _ => .empty

/-- The content map of what was gathered. -/
def entriesOf (tallies : BodyKind → Tally) : List (String × Value) :=
  (((BodyKind.preferred.map fun kind => (tallies kind).encoding kind).filter fun e => !e.components.isEmpty).map
    fun e => mediaEntry e.kind.mediaType (encodingValue e)) ++ always

/-- A step changes what is known of one family at most. -/
theorem tallyStep_apply (tallies : BodyKind → Tally) (p : Param) (kind : BodyKind) :
    tallyStep types tallies p kind =
      if (types.bodyKind p.type).toOption == some kind then (tallies kind).add types p else tallies kind := by
  unfold tallyStep
  cases types.bodyKind p.type with
  | error d => rfl
  | ok own =>
    show Function.update tallies own _ kind = _
    by_cases h : own = kind
    · subst h
      simp [Except.toOption]
    · rw [Function.update_of_ne (Ne.symm h)]
      simp [Except.toOption, h]

/-- **The pass keeps the families apart**: what it gathers for one is what its own parameters add. -/
theorem foldl_tallyStep (tallies : BodyKind → Tally) (ps : List Param) (kind : BodyKind) :
    ps.foldl (tallyStep types) tallies kind = (ofKind types kind ps).foldl (Tally.add types) (tallies kind) := by
  induction ps generalizing tallies with
  | nil => rfl
  | cons p ps ih =>
    rw [List.foldl_cons, ih, tallyStep_apply, ofKind, ofKind, List.filter_cons]
    split
    · rw [List.foldl_cons]
    · rfl

theorem components_cons (p : Param) (ps : List Param) : components types (p :: ps) =
    (if types.isStruct (payload types p) then [types.typeName (payload types p)] else [])
      ++ components types ps := by
  unfold components
  rw [List.map_cons, List.filter_cons]
  split <;> simp

theorem components_foldl_add (t : Tally) (ps : List Param) :
    (ps.foldl (Tally.add types) t).components = t.components ++ components types ps := by
  induction ps generalizing t with
  | nil => exact (List.append_nil _).symm
  | cons p ps ih =>
    rw [List.foldl_cons, ih, components_cons, Tally.add]
    dsimp only
    split <;> simp

theorem count_foldl_add (t : Tally) (ps : List Param) :
    (ps.foldl (Tally.add types) t).count = t.count + ps.length := by
  induction ps generalizing t with
  | nil => rfl
  | cons p ps ih =>
    rw [List.foldl_cons, ih, List.length_cons]
    show t.count + 1 + ps.length = _
    omega

/-- The last type that was seen only matters for a parameter that is alone in its family. -/
theorem encoding_foldl_add (kind : BodyKind) (ps : List Param) :
    (ps.foldl (Tally.add types) .empty).encoding kind = ⟨kind, components types ps, wordOf types kind ps⟩ := by
  have hcomponents : (ps.foldl (Tally.add types) .empty).components = components types ps :=
    components_foldl_add _ _
  have hcount : (ps.foldl (Tally.add types) .empty).count = ps.length := by
    rw [count_foldl_add]
    exact Nat.zero_add _
  rw [Tally.encoding, hcomponents, hcount]
  congr 1
  cases kind with
  | json => rfl
  | form => rfl
  | text =>
    cases ps with
    | nil => rfl
    | cons p ps =>
      cases ps with
      | nil => rfl
      | cons q ps =>
        have hmore : 1 < (p :: q :: ps).length := by simp
        rw [if_pos rfl, if_pos hmore]
        rfl

/-- The content map is read off at the end of the pass. -/
theorem entriesOf_tally (types : Declarations) (ps : List Param) :
    entriesOf (tally types ps) = entries types ps := by
  have hfamily : ∀ kind, (tally types ps kind).encoding kind =
      ⟨kind, components types (ofKind types kind ps), wordOf types kind (ofKind types kind ps)⟩ := by
    intro kind
    rw [tally, foldl_tallyStep, encoding_foldl_add]
  rw [entriesOf, entries, encodings]
  congr 3
  exact List.map_congr_left fun kind _ => hfamily kind

/-- The pass as it is made: a parameter whose encoding cannot be a key ends it. -/
def pass (types : Declarations) (tallies : BodyKind → Tally) : List Param → Except Failure (BodyKind → Tally)
  | [] => .ok tallies
  | p :: ps =>
    match obstacle? types p with
    | some kind => .error (.notAKey kind)
    | none => pass types (tallyStep types tallies p) ps

theorem pass_eq (tallies : BodyKind → Tally) (ps : List Param) : pass types tallies ps =
    match ps.findSome? (obstacle? types) with
    | some kind => .error (.notAKey kind)
    | none => .ok (ps.foldl (tallyStep types) tallies) := by
  induction ps generalizing tallies with
  | nil => rfl
  | cons p ps ih =>
    rw [pass, List.findSome?_cons, List.foldl_cons, ih]
    cases obstacle? types p <;> rfl

/-- **The content map is made in one pass.** -/
theorem map_entriesOf_pass (types : Declarations) (ps : List Param) :
    (pass types (fun _ => .empty) ps).map entriesOf = content types ps := by
  rw [pass_eq, content, ← entriesOf_tally, tally]
  cases ps.findSome? (obstacle? types) <;> rfl

theorem content_eq_ok (h : ∀ p ∈ ps, obstacle? types p = none) : content types ps = .ok (entries types ps) := by
  rw [content, List.findSome?_eq_none_iff.2 h]

theorem content_eq_error {before after : List Param} {p : Param} {kind : String}
    (hbefore : ∀ q ∈ before, obstacle? types q = none) (hp : obstacle? types p = some kind) :
    content types (before ++ p :: after) = .error (.notAKey kind) := by
  rw [content, List.findSome?_append, List.findSome?_eq_none_iff.2 hbefore, Option.none_or, List.findSome?_cons, hp]

/-! ### The content map by families -/

/-- Some parameter of the family has a structured payload. -/
def offers (types : Declarations) (ps : List Param) (kind : BodyKind) : Bool :=
  (ofKind types kind ps).any fun p => types.isStruct (payload types p)

/-- References to the structured payloads among parameters, in order. -/
def references (types : Declarations) (ps : List Param) : List Value :=
  (ps.filter fun p => types.isStruct (payload types p)).map fun p =>
    .object [("$ref", .str (componentPlace (types.typeName (payload types p))))]

/-- The entry of a family that is offered.  Several texts are described together as one text. -/
def familyEntry (types : Declarations) (ps : List Param) (kind : BodyKind) : String × Value :=
  (kind.mediaType, .object [("schema", .object
    [("allOf", .list (references types (ofKind types kind ps))),
      ("type", .str (if kind = .text ∧ 1 < (ofKind types kind ps).length then "string" else "object"))])])

theorem components_isEmpty (kind : BodyKind) (ps : List Param) :
    (components types (ofKind types kind ps)).isEmpty = !offers types ps kind := by
  rw [components, offers, Bool.eq_iff_iff]
  simp

/-- A text that is alone is structured where its family is offered. -/
theorem name_wordOf {kind : BodyKind} {ps : List Param} (h : offers types ps kind = true) :
    (wordOf types kind (ofKind types kind ps)).name =
      if kind = .text ∧ 1 < (ofKind types kind ps).length then "string" else "object" := by
  unfold offers at h
  generalize ofKind types kind ps = own at h
  cases kind with
  | json => rfl
  | form => rfl
  | text =>
    cases own with
    | nil => cases h
    | cons p own =>
      cases own with
      | cons q own =>
        rw [if_pos ⟨rfl, by simp⟩]
        rfl
      | nil =>
        have hstruct : types.tag (payload types p) = .object := by simpa [Declarations.isStruct] using h
        rw [if_neg (by simp)]
        show (types.typeNameOf (payload types p)).name = _
        rw [Declarations.typeNameOf, hstruct]
        rfl

theorem references_eq (ps : List Param) : references types ps =
    (components types ps).map fun name => .object [("$ref", .str (componentPlace name))] := by
  rw [references, components, List.filter_map, List.map_map, List.map_map]
  rfl

theorem entries_eq (types : Declarations) (ps : List Param) : entries types ps =
    (BodyKind.preferred.filter (offers types ps)).map (familyEntry types ps) ++ always := by
  have hoffers : ∀ kind, (!(components types (ofKind types kind ps)).isEmpty) = offers types ps kind := by
    intro kind
    rw [components_isEmpty, Bool.not_not]
  rw [entries, encodings, List.filter_map, List.map_map]
  congr 1
  show List.map _ (BodyKind.preferred.filter fun kind => !(components types (ofKind types kind ps)).isEmpty) = _
  simp only [hoffers]
  apply List.map_congr_left
  intro kind hkind
  have hoffered : offers types ps kind = true := (List.mem_filter.1 hkind).2
  rw [familyEntry, references_eq, ← name_wordOf hoffered]
  rfl

/-- **The content map, family by family.**  One pass over the parameters makes it, and fails at the first parameter
whose class sets what cannot be a key.  Otherwise the families of which some parameter has a structured payload come
first, JSON before text before forms, each with references to its structured payloads in the order of the parameters;
XML and file upload follow.  Only several texts are described as one text.  So the map does not depend on how the
parameters of different families are mixed.  What is no extractor of bodies is of the JSON family, and an extractor of
bodies is of the family that the first class sets in its order of resolution, or of none if that is another value;
where no declared class sets any, it is of the family of the extractor that it is or derives from. -/
theorem content_by_family (types : Declarations) (ps : List Param) :
    (pass types (fun _ => .empty) ps).map entriesOf = content types ps ∧
      (∀ before p after kind, ps = before ++ p :: after → (∀ q ∈ before, obstacle? types q = none) →
        obstacle? types p = some kind → content types ps = .error (.notAKey kind)) ∧
      ((∀ p ∈ ps, obstacle? types p = none) → content types ps =
        .ok ((BodyKind.preferred.filter (offers types ps)).map (familyEntry types ps) ++ always)) ∧
      (∀ qs, (∀ q ∈ ps ++ qs, obstacle? types q = none) → (∀ kind, ofKind types kind qs = ofKind types kind ps) →
        content types qs = content types ps) ∧
      (∀ p kind, obstacle? types p = some kind ↔
        ∃ place, types.bodyKind p.type = .error place ∧ place.obstacle? = some kind) ∧
      (∀ t, types.isBodyExtractor t = false → types.bodyKind t = .ok .json) ∧
      (∀ e arg, types.bodyKind (.extractor e arg) = .ok e.bodyKind) ∧
      (∀ t before c after kind, types.isBodyExtractor t = true → types.resolution t = before ++ c :: after →
        (∀ b ∈ before, types.kindSetBy b = none) → types.kindSetBy c = some kind → types.bodyKind t = kind) ∧
      ∀ t, types.LeavesKind t → types.bodyKind t = .ok ((types.extractor? t).elim .json Extractor.bodyKind) := by
  refine ⟨map_entriesOf_pass types ps, ?_, fun h => ?_, fun qs hclear hqs => ?_, fun p kind => ?_,
    fun _ => Declarations.bodyKind_of_not_isBodyExtractor, Declarations.bodyKind_extractor types,
    fun _ _ _ _ _ => Declarations.bodyKind_of_first, fun _ => Declarations.bodyKind_of_leavesKind⟩
  · rintro before p after kind rfl hbefore hp
    exact content_eq_error hbefore hp
  · rw [content_eq_ok h, entries_eq]
  · obtain ⟨hps, hqsClear⟩ := List.forall_mem_append.1 hclear
    have hsame : entries types qs = entries types ps := by
      rw [entries, encodings]
      simp only [hqs]
      rfl
    rw [content_eq_ok hps, content_eq_ok hqsClear, hsame]
  · unfold obstacle?
    cases types.bodyKind p.type <;> simp

/-- A pet; forms of a class of their own; and classes over an extractor of JSON that set another encoding. -/
def petTypes : Declarations :=
  [⟨"Pet", "Pet", .dataclass, [], [], none⟩, ⟨"Sheet", "Sheet", .extractor (.extractor .form none), [], [], none⟩,
    ⟨"Plain", "Plain", .extractor (.extractor .json none),
      [⟨"kind", .builtin .bodyKind, some (.shared BodyKind.text.datum), none⟩], [], none⟩,
    ⟨"Marked", "Marked", .extractor (.extractor .json none),
      [⟨"kind", .builtin .bodyKind, some (.shared (.gathering .list [.int 1])), none⟩], [], none⟩]

/-- A body parameter of the given type. -/
def sent (name : String) (t : TypeExpr) : Param := ⟨name, t, true, false, .null⟩

/-- Two texts and two pets, mixed and in groups. -/
theorem pets_by_family :
    let pet (e : Extractor) := TypeExpr.extractor e (some (.declared "Pet"))
    let mixed := [sent "a" (pet .body), sent "b" (pet .json), sent "c" (pet .body), sent "d" (.declared "Pet")]
    let grouped := [sent "b" (pet .json), sent "d" (.declared "Pet"), sent "a" (pet .body), sent "c" (pet .body)]
    petTypes.LeavesKind (.declared "Sheet") ∧ petTypes.bodyKind (.declared "Sheet") = .ok .form ∧
      BodyKind.preferred.filter (offers petTypes grouped) = [.json, .text] ∧
      content petTypes mixed = content petTypes grouped := by
  intro pet mixed grouped
  obtain ⟨-, -, -, hmixed, -, -, -, -, hkind⟩ := content_by_family petTypes grouped
  have hleaves : petTypes.LeavesKind (.declared "Sheet") := by
    intro id hid
    have horder : petTypes.resolution (.declared "Sheet") =
        [.declared "Sheet", .extractor .form, .extractor .bodyExtractor, .extractor .extractor] := by decide +kernel
    rw [horder] at hid
    obtain rfl : id = "Sheet" := by simpa using hid
    rfl
  refine ⟨hleaves, hkind _ hleaves, by decide +kernel, hmixed mixed (by decide +kernel) ?_⟩
  intro kind
  cases kind with
  | json => rfl
  | text => rfl
  | form => rfl

/-- **Classes that set an encoding of their own.**  Both derive from the extractor of JSON.  Pets sent in the one are
sent as a text, and no content map is made for the other. -/
theorem kinds_of_their_own :
    let pets := [sent "pet" (.container (.declared "Plain") false (some [.declared "Pet"]))]
    let marked := [sent "mark" (.declared "Marked")]
    (∀ p ∈ pets ++ marked, petTypes.extractor? p.type = some .json) ∧
      (content petTypes pets).map (List.map Prod.fst) =
        .ok ["text/plain", "application/xml", "multipart/form-data"] ∧
      content petTypes marked = .error (.notAKey "list") := by
  intro pets marked
  have hkeys : ((content petTypes pets).toOption).map (List.map Prod.fst) =
      some ["text/plain", "application/xml", "multipart/form-data"] := by decide +kernel
  have hmarked : obstacle? petTypes (sent "mark" (.declared "Marked")) = some "list" := by decide +kernel
  have hpets : content petTypes pets = .ok (entries petTypes pets) := content_eq_ok (by decide +kernel)
  have hnone : ∀ q ∈ ([] : List Param), obstacle? petTypes q = none := by simp
  refine ⟨by decide +kernel, ?_, content_eq_error hnone hmarked⟩
  rw [hpets] at hkeys ⊢
  exact congrArg Except.ok (Option.some.inj hkeys)

end Content

end RouteDoc
